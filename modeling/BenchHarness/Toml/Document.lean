import BenchHarness.Toml.Scalar

/-!
# TOML documents

A document is read line by line: comments, headers that open tables, and keys with values. Reading
gives the document's table, or nothing if the text is not TOML.
-/

namespace BenchHarness.Toml

/-! ## Blanks, comments and line ends -/

/-- Whether a character is a blank within a line. -/
def isBlank (c : Char) : Bool := c = ' ' || c = '\t'

/-- Drops blanks. -/
def skipBlank (s : List Char) : List Char := s.dropWhile isBlank

/-- Whether a character may stand in a comment or a string. -/
def isText (c : Char) : Bool := c = '\t' || (0x20 ≤ c.toNat && c.toNat ≠ 0x7f)

/-- The rest after a line end. -/
def takeLineEnd : List Char → Option (List Char)
  | '\n' :: rest => some rest
  | '\x0d' :: '\n' :: rest => some rest
  | _ => none

/-- Drops a comment, if there is one, up to the end of its line. -/
def skipComment (s : List Char) : List Char :=
  match s with
  | '#' :: rest => rest.dropWhile isText
  | _ => s

/-- The end of a line after its content: blanks and a comment may follow. -/
def finishLine (s : List Char) : Option (List Char) :=
  match skipComment (skipBlank s) with
  | [] => some []
  | rest => takeLineEnd rest

/-- Drops blanks, comments and line ends. -/
def skipLines : (fuel : Nat) → List Char → List Char
  | 0, s => s
  | fuel + 1, s =>
    let rest := skipComment (skipBlank s)
    match takeLineEnd rest with
    | some rest => skipLines fuel rest
    | none => rest

/-- Drops everything that may stand between the parts of an array or a table in braces. -/
def skipSpace (s : List Char) : List Char := skipLines (s.length + 1) s

/-! ## Strings -/

/-- The character with a code of `width` hexadecimal digits at the front. -/
def takeCode (width : Nat) (s : List Char) : Option (Char × List Char) := do
  let front := s.take width
  if front.length ≠ width then none
  let n ← front.foldlM (fun n c => (digitValue? 16 c).map (n * 16 + ·)) 0
  if n < 0xd800 ∨ (0xdfff < n ∧ n < 0x110000) then some (Char.ofNat n, s.drop width) else none

/-- The character that an escape stands for, after its backslash. -/
def takeEscape : List Char → Option (Char × List Char)
  | [] => none
  | c :: rest =>
    if c = 'b' then some ('\x08', rest)
    else if c = 't' then some ('\t', rest)
    else if c = 'n' then some ('\n', rest)
    else if c = 'f' then some ('\x0c', rest)
    else if c = 'r' then some ('\x0d', rest)
    else if c = 'e' then some ('\x1b', rest)
    else if c = '\x22' then some ('\x22', rest)
    else if c = '\\' then some ('\\', rest)
    else if c = 'x' then takeCode 2 rest
    else if c = 'u' then takeCode 4 rest
    else if c = 'U' then takeCode 8 rest
    else none

/-- The rest of a string on one line in double quotes. -/
def basicString : (fuel : Nat) → List Char → Option (List Char × List Char)
  | 0, _ => none
  | _ + 1, [] => none
  | fuel + 1, c :: rest =>
    if c = '\x22' then some ([], rest)
    else if c = '\\' then do
      let (d, rest) ← takeEscape rest
      let (text, rest) ← basicString fuel rest
      some (d :: text, rest)
    else if isText c then do
      let (text, rest) ← basicString fuel rest
      some (c :: text, rest)
    else none

/-- The rest of a string on one line in single quotes. -/
def literalString : List Char → Option (List Char × List Char)
  | [] => none
  | c :: rest =>
    if c = '\x27' then some ([], rest)
    else if isText c then (literalString rest).map fun (text, rest) => (c :: text, rest)
    else none

/-- The end of a string in triple quotes, if the text stands at one. Up to two more quotes belong to
the string, and any after those to what follows it. -/
def tripleEnd (quote : Char) (s : List Char) : Option (List Char × List Char) :=
  let run := (s.takeWhile (· = quote)).take 5
  if run.length < 3 then none else some (run.drop 3, s.drop run.length)

/-- Drops blanks and line ends. -/
def skipBlankLines : List Char → List Char
  | [] => []
  | '\x0d' :: '\n' :: rest => skipBlankLines rest
  | c :: rest => if isBlank c || c = '\n' then skipBlankLines rest else c :: rest

/-- Drops the blanks and line ends that a backslash at the end of a line hides; there must be a line
end among them. -/
def foldedLine (s : List Char) : Option (List Char) :=
  (takeLineEnd (skipBlank s)).map skipBlankLines

/-- Whether a string in triple quotes may go on with its next character: line ends are kept as they
are written. -/
def goesOn : List Char → Bool
  | '\x0d' :: '\n' :: _ => true
  | c :: _ => c = '\n' || isText c
  | [] => false

/-- The rest of a string in triple double quotes. -/
def longBasic : (fuel : Nat) → List Char → Option (List Char × List Char)
  | 0, _ => none
  | fuel + 1, s =>
    match tripleEnd '\x22' s with
    | some found => some found
    | none =>
      match s with
      | [] => none
      | c :: rest =>
        if c = '\\' then
          match foldedLine rest with
          | some rest => longBasic fuel rest
          | none => do
            let (d, rest) ← takeEscape rest
            let (text, rest) ← longBasic fuel rest
            some (d :: text, rest)
        else if goesOn s then
          (longBasic fuel rest).map fun (text, rest) => (c :: text, rest)
        else none

/-- The rest of a string in triple single quotes. -/
def longLiteral : (fuel : Nat) → List Char → Option (List Char × List Char)
  | 0, _ => none
  | fuel + 1, s =>
    match tripleEnd '\x27' s with
    | some found => some found
    | none =>
      match s with
      | [] => none
      | c :: rest =>
        if goesOn s then (longLiteral fuel rest).map fun (text, rest) => (c :: text, rest)
        else none

/-- Drops a line end right after the opening of a string in triple quotes. -/
def dropFirstLineEnd (s : List Char) : List Char := (takeLineEnd s).getD s

/-- A string in any kind of quotes. -/
def takeString (s : List Char) : Option (String × List Char) :=
  let done (r : Option (List Char × List Char)) : Option (String × List Char) :=
    r.map fun (text, rest) => (String.ofList text, rest)
  match s with
  | '\x22' :: '\x22' :: '\x22' :: rest => done (longBasic (rest.length + 1) (dropFirstLineEnd rest))
  | '\x27' :: '\x27' :: '\x27' :: rest =>
    done (longLiteral (rest.length + 1) (dropFirstLineEnd rest))
  | '\x22' :: rest => done (basicString (rest.length + 1) rest)
  | '\x27' :: rest => done (literalString rest)
  | _ => none

/-! ## Keys -/

/-- Whether a character may stand in a key without quotes. -/
def isKeyChar (c : Char) : Bool := c.isAlphanum || c = '_' || c = '-'

/-- One part of a key. -/
def takeKeyPart (s : List Char) : Option (String × List Char) :=
  match s with
  | '\x22' :: rest => (basicString (rest.length + 1) rest).map fun (t, r) => (String.ofList t, r)
  | '\x27' :: rest => (literalString rest).map fun (t, r) => (String.ofList t, r)
  | _ =>
    let front := s.takeWhile isKeyChar
    if front = [] then none else some (String.ofList front, s.dropWhile isKeyChar)

/-- Parts of a key with dots between them; the first argument bounds how many. -/
def takeKeyParts : (bound : Nat) → List Char → Option (List String × List Char)
  | 0, _ => none
  | bound + 1, s => do
    let (part, rest) ← takeKeyPart (skipBlank s)
    match skipBlank rest with
    | '.' :: rest =>
      let (parts, rest) ← takeKeyParts bound rest
      some (part :: parts, rest)
    | rest => some ([part], rest)

/-- How deeply arrays and tables in braces may be nested, and how many parts a key may have. -/
def maxDepth : Nat := 80

/-- A key. -/
def takeKey (s : List Char) : Option (List String × List Char) := takeKeyParts maxDepth s

/-! ## Values -/

mutual

/-- A value. -/
def takeValue : (fuel : Nat) → (depth : Nat) → List Char → Option (Value × List Char)
  | 0, _, _ => none
  | fuel + 1, depth, s =>
    match s with
    | '[' :: rest =>
      if maxDepth ≤ depth then none
      else (takeItems fuel (depth + 1) (skipSpace rest)).map fun (items, rest) =>
        (.array false items, rest)
    | '\x7b' :: rest =>
      if maxDepth ≤ depth then none
      else (takeMembers fuel (depth + 1) [] (skipSpace rest)).map fun (members, rest) =>
        (.table .inlined members, rest)
    | '\x22' :: _ => (takeString s).map fun (text, rest) => (.string text, rest)
    | '\x27' :: _ => (takeString s).map fun (text, rest) => (.string text, rest)
    | _ =>
      let (word, rest) := takeWord s
      (scalar? word).map fun value => (value, rest)

/-- The items of an array up to its end. -/
def takeItems : (fuel : Nat) → (depth : Nat) → List Char → Option (List Value × List Char)
  | 0, _, _ => none
  | fuel + 1, depth, s =>
    match s with
    | ']' :: rest => some ([], rest)
    | _ => do
      let (value, rest) ← takeValue fuel depth s
      match skipSpace rest with
      | ',' :: rest =>
        let (more, rest) ← takeItems fuel depth (skipSpace rest)
        some (value :: more, rest)
      | ']' :: rest => some ([value], rest)
      | _ => none

/-- The members of a table in braces up to its end, added to those read already. -/
def takeMembers : (fuel : Nat) → (depth : Nat) → Members → List Char →
    Option (Members × List Char)
  | 0, _, _, _ => none
  | fuel + 1, depth, members, s =>
    match s with
    | '\x7d' :: rest => some (members, rest)
    | _ => do
      let (key, rest) ← takeKey s
      let rest ← takeChar '=' (skipSpace rest)
      let (value, rest) ← takeValue fuel depth (skipSpace rest)
      let members ← defineKey value key members
      match skipSpace rest with
      | ',' :: rest => takeMembers fuel depth members (skipSpace rest)
      | '\x7d' :: rest => some (members, rest)
      | _ => none

end

/-! ## Documents -/

/-- A document read so far: its table, and the name of the table that keys are added to. -/
structure Draft where
  members : Members
  section_ : List String

/-- Opens the table of a single-bracket header. -/
def openHeader (key : List String) (d : Draft) : Option Draft :=
  match key.reverse with
  | [] => none
  | last :: before =>
    (within (openTable last) before.reverse d.members).map fun members => ⟨members, key⟩

/-- Adds a table to the array of a double-bracket header. -/
def openArrayHeader (key : List String) (d : Draft) : Option Draft :=
  match key.reverse with
  | [] => none
  | last :: before =>
    (within (openElement last) before.reverse d.members).map fun members => ⟨members, key⟩

/-- Reads the content of a line that is not empty. -/
def takeLine (d : Draft) (s : List Char) : Option (Draft × List Char) :=
  match s with
  | '[' :: '[' :: rest => do
    let (key, rest) ← takeKey rest
    let rest ← takeChar ']' rest
    let rest ← takeChar ']' rest
    let d ← openArrayHeader key d
    some (d, rest)
  | '[' :: rest => do
    let (key, rest) ← takeKey rest
    let rest ← takeChar ']' rest
    let d ← openHeader key d
    some (d, rest)
  | _ => do
    let (key, rest) ← takeKey s
    let rest ← takeChar '=' rest
    let (value, rest) ← takeValue (rest.length + 1) 0 (skipBlank rest)
    let members ← within (defineKey value key) d.section_ d.members
    some (⟨members, d.section_⟩, rest)

/-- Reads line after line. -/
def takeLines : (fuel : Nat) → Draft → List Char → Option Members
  | 0, _, _ => none
  | fuel + 1, d, s =>
    match skipSpace s with
    | [] => some d.members
    | rest => do
      let (d, rest) ← takeLine d rest
      let rest ← finishLine rest
      takeLines fuel d rest

/-- Drops a byte order mark at the front. -/
def skipMark : List Char → List Char
  | '\ufeff' :: rest => rest
  | s => s

/-- The table of a document, if the text is TOML. -/
def parse? (text : String) : Option Members :=
  takeLines (text.toList.length + 1) ⟨[], []⟩ (skipMark text.toList)

end BenchHarness.Toml
