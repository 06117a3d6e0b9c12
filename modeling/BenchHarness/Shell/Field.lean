import BenchHarness.Shell.Arithmetic
import BenchHarness.Shell.Pattern
import BenchHarness.Shell.Process

/-!
# Fields

What the words of a command become before it runs. Values are put in, what came from outside quotes
is split at separators, and patterns become the paths that they match.
-/

namespace BenchHarness.Shell

/-- A piece of a word whose values have been put in. -/
inductive Item where
  | glyph (g : Glyph)
  /-- A character that came from a value outside quotes. -/
  | loose (c : Char)
  /-- The place between two arguments. -/
  | boundary
  /-- Nothing, but in quotes: there is a field even if it is empty. -/
  | mark
  deriving DecidableEq, Repr

namespace Item

/-- The items of some text. -/
def ofOctets (quoted : Bool) (s : Octets) : List Item :=
  if quoted then .mark :: s.map (.glyph ⟨·, true⟩) else s.map (.glyph ⟨·, false⟩)

/-- The items of a value. -/
def ofValue (quoted : Bool) (s : Octets) : List Item :=
  if quoted then ofOctets true s else s.map .loose

/-- The glyphs of some items that are not split. -/
def glyphs (items : List Item) : List Glyph :=
  items.filterMap fun
    | .glyph g => some g
    | .loose c => some ⟨c, false⟩
    | .boundary => some ⟨' ', false⟩
    | .mark => none

/-- The text of some items that are not split. -/
def text (items : List Item) : Octets := (glyphs items).map (·.char)

/-! ## Splitting -/

/-- What has been split so far: the fields, the latest first, the field that is being read, if there
is one, and whether blanks came before. -/
structure Splitting where
  fields : List (List Glyph)
  current : Option (List Glyph)
  afterBlank : Bool

/-- Ends the field that is being read. -/
def Splitting.close (s : Splitting) : Splitting :=
  match s.current with
  | some field => ⟨field.reverse :: s.fields, none, false⟩
  | none => s

/-- Takes the next item, with the characters that separate fields. -/
def Splitting.take (separators : Octets) (s : Splitting) : Item → Splitting
  | .glyph g => { s with current := some (g :: s.current.getD []), afterBlank := false }
  | .mark => { s with current := some (s.current.getD []), afterBlank := false }
  | .boundary => { s.close with afterBlank := false }
  | .loose c =>
    if ! separators.contains c then
      { s with current := some (⟨c, false⟩ :: s.current.getD []), afterBlank := false }
    else if c = ' ' || c = '\t' || c = '\n' then
      { s.close with afterBlank := s.current.isSome || s.afterBlank }
    else if s.current.isSome then { s.close with afterBlank := false }
    else if s.afterBlank then { s with afterBlank := false }
    else { s with fields := [] :: s.fields }

/-- Splits items into fields. -/
def split (separators : Octets) (items : List Item) : List (List Glyph) :=
  (items.foldl (Splitting.take separators) ⟨[], none, false⟩).close.fields.reverse

end Item

/-! ## Paths that match a pattern -/

namespace Field

/-- Whether a name is in front of another in the order of bytes. -/
def nameBefore : Octets → Octets → Bool
  | [], _ => true
  | _ :: _, [] => false
  | a :: s, b :: t => if a = b then nameBefore s t else a < b

/-- The names in a directory, in order. -/
def namesIn (path : Octets) : Act (List Octets) := do
  match (← Act.files).findNode true (← Act.process).cwd (Octets.toBytes path) with
  | .ok (.directory _ children) =>
    pure ((children.map fun c => Octets.ofBytes c.1).mergeSort nameBefore)
  | _ => pure []

/-- Whether a path leads to anything. -/
def isThere (path : Octets) : Act Bool := do
  match (← Act.files).find false (← Act.process).cwd (Octets.toBytes path) with
  | .ok (.vacant _ _) => pure false
  | .ok _ => pure true
  | .error _ => pure false

/-- The paths that some steps of a pattern lead to, from a path that ends with a separator or is
empty. -/
def paths (base : Octets) : List (List Glyph) → Act (List Octets)
  | [] => pure [base]
  | step :: rest => do
    let finish (s : Octets) : Octets := if rest = [] then s else s ++ ['/']
    let pattern := Pattern.ofGlyphs step
    if ! Pattern.isOpen pattern then
      let path := base ++ step.map (·.char)
      if rest = [] then pure (if ← isThere path then [path] else [])
      else paths (finish path) rest
    else
      let hidden := step.head?.map (·.char) = some '.'
      let all ← namesIn (if base = [] then ['.'] else base)
      let names := ((if hidden then [['.'], ['.', '.']] else []) ++ all).filter fun name =>
        (hidden || name.head? ≠ some '.') && Pattern.isMatch pattern name
      let found ← names.mapM fun name => paths (finish (base ++ name)) rest
      pure found.flatten

/-- The paths that a field matches, or the field itself. -/
def matching (field : List Glyph) : Act (List Octets) := do
  let itself := field.map (·.char)
  if (← Act.process).keepsPatterns || ! Pattern.isOpen (Pattern.ofGlyphs field) then pure [itself]
  else
    let steps := Pieces.split '/' (field.map (·.char))
    let sizes := steps.map List.length
    let cut (state : List (List Glyph) × List Glyph) (size : Nat) :=
      (state.1 ++ [state.2.take size], state.2.drop (size + 1))
    match ← paths [] (sizes.foldl cut ([], field)).1 with
    | [] => pure [itself]
    | found => pure found

/-! ## Values -/

/-- The characters that separate fields. -/
def separators : Act Octets := do
  pure ((← Act.variableValue "IFS".toList).getD [' ', '\t', '\n'])

/-- Puts texts together with a separator between neighbours. -/
def joined (separator : Octets) : List Octets → Octets
  | [] => []
  | [s] => s
  | s :: rest => s ++ separator ++ joined separator rest

/-- The options that are on. -/
def optionLetters (p : Process) : Octets :=
  (if p.exitOnError then ['e'] else []) ++ (if p.strict then ['u'] else []) ++
    (if p.trace then ['x'] else [])

/-- The value of a parameter, if it is set. -/
def valueOf (name : Octets) : Act (Option Octets) := do
  let p ← Act.process
  match name with
  | ['@'] | ['*'] => do
    pure (some (joined ((← separators).take 1) p.arguments))
  | ['#'] => pure (some (Octets.ofNat p.arguments.length))
  | ['?'] => pure (some (Octets.ofNat p.status))
  | ['-'] => pure (some (optionLetters p))
  | ['$'] => pure (some (Octets.ofNat p.pid))
  | ['!'] => pure (p.lastJob.map Octets.ofNat)
  | _ =>
    match Octets.toNat? name with
    | some 0 => pure (some p.name)
    | some (n + 1) => pure p.arguments[n]?
    | none => Act.variableValue name

/-- The items of a parameter as it is. -/
def plainItems (quoted : Bool) (name : Octets) (value : Octets) : Act (List Item) := do
  let arguments := (← Act.process).arguments
  let separate := (arguments.map (Item.ofValue quoted)).intersperse [.boundary]
  match name with
  | ['@'] => pure separate.flatten
  | ['*'] => pure (if quoted then Item.ofValue true value else separate.flatten)
  | _ => pure (Item.ofValue quoted value)

/-- The items of the parts of a word. `substitute` runs a script and gives its output; the first
argument bounds how deep words are nested in words. -/
def items (substitute : Octets → Act Octets) : Nat → Word → Act (List Item)
  | 0, _ => pure []
  | depth + 1, word => do
    let textItems (context : Word.Context) (text : Octets) : Act (List Item) := do
      match Word.ofText context text with
      | .ok w => items substitute depth w
      | .error message => Act.abort message.toList
    let operandItems (quoted : Bool) (operand : Octets) : Act (List Item) :=
      textItems (if quoted then .innerOperand else .operand) operand
    let partItems : Part → Act (List Item)
      | .literal quoted text => pure (Item.ofOctets quoted text)
      | .output quoted source => do
        let output ← substitute source
        pure (Item.ofValue quoted (output.reverse.dropWhile (· = '\n')).reverse)
      | .arithmetic quoted source => do
        let expression := Item.text (← textItems .document source)
        match Arithmetic.evaluate (← Act.process).bindings expression with
        | .error problem => Act.abort (problem.message expression)
        | .ok (value, assigned) => do
          assigned.forM fun (name, value) => Act.setVariable name value
          pure (Item.ofValue quoted (Octets.ofInt value))
      | .parameter quoted name rule operand => do
        let value ← valueOf name
        let isUnset (orEmpty : Bool) : Bool := value.isNone || (orEmpty && value = some [])
        let plain := plainItems quoted name (value.getD [])
        match rule with
        | .plain =>
          if value.isNone && (← Act.process).strict && name ≠ ['@'] && name ≠ ['*'] then
            Act.abort (name ++ ": parameter not set".toList)
          else plain
        | .length => pure (Item.ofValue quoted (Octets.ofNat (value.getD []).length))
        | .useDefault orEmpty => if isUnset orEmpty then operandItems quoted operand else plain
        | .assignDefault orEmpty =>
          if isUnset orEmpty then do
            let text := Item.text (← operandItems quoted operand)
            Act.setVariable name text
            pure (Item.ofValue quoted text)
          else plain
        | .demand orEmpty =>
          if isUnset orEmpty then do
            let text := Item.text (← operandItems quoted operand)
            let usual := if orEmpty then "parameter not set or null" else "parameter not set"
            Act.abort (name ++ ": ".toList ++ if text = [] then usual.toList else text)
          else plain
        | .alternative orEmpty =>
          if isUnset orEmpty then pure (if quoted then [.mark] else [])
          else operandItems quoted operand
        | .trimStart longest => do
          let pattern := Pattern.ofGlyphs (Item.glyphs (← operandItems false operand))
          pure (Item.ofValue quoted (Pattern.trimStart longest pattern (value.getD [])))
        | .trimEnd longest => do
          let pattern := Pattern.ofGlyphs (Item.glyphs (← operandItems false operand))
          pure (Item.ofValue quoted (Pattern.trimEnd longest pattern (value.getD [])))
    pure (← word.mapM partItems).flatten

/-- How deep words may be nested in words. -/
def maxDepth : Nat := 100

variable (substitute : Octets → Act Octets)

/-- The text of a word that is neither split nor matched. -/
def textOf (word : Word) : Act Octets := do pure (Item.text (← items substitute maxDepth word))

/-- The pattern of a word. -/
def patternOf (word : Word) : Act Pattern := do
  pure (Pattern.ofGlyphs (Item.glyphs (← items substitute maxDepth word)))

/-- The fields of words. -/
def ofWords (words : List Word) : Act (List Octets) := do
  let fields ← words.mapM fun word => do
    let parts := Item.split (← separators) (← items substitute maxDepth word)
    pure (← parts.mapM matching).flatten
  pure fields.flatten

end Field

end BenchHarness.Shell
