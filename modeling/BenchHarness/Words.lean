/-!
# Command words

A command line is split into words the way a shell splits it, without any expansion, and words are
put together again with as few quotes as splitting needs.
-/

namespace BenchHarness.Words

/-! ## Splitting -/

/-- What is being read while a command line is split. -/
inductive State where
  /-- Between words. -/
  | delimiter
  /-- After a backslash between words. -/
  | delimiterBackslash
  /-- Inside a word, outside quotes. -/
  | unquoted
  /-- After a backslash inside a word, outside quotes. -/
  | unquotedBackslash
  | singleQuoted
  | doubleQuoted
  /-- After a backslash inside double quotes. -/
  | doubleQuotedBackslash
  /-- In a comment, which ends with the line. -/
  | comment
  deriving DecidableEq, Repr

/-- Whether a character separates words. -/
def isDelimiter (c : Char) : Bool := c = ' ' || c = '\t' || c = '\n'

/-- Whether a backslash inside double quotes makes a character stand for itself. -/
def isEscapable (c : Char) : Bool := c = '$' || c = '\x60' || c = '\x22' || c = '\\'

/-- Splits the rest of a command line; `word` holds the characters of the word being read, the last
one first. There is no result if a quote is not closed. -/
def splitFrom : State → (word : List Char) → List Char → Option (List (List Char))
  | .delimiter, _, [] => some []
  | .delimiterBackslash, _, [] => some [['\\']]
  | .unquoted, word, [] => some [word.reverse]
  | .unquotedBackslash, word, [] => some [('\\' :: word).reverse]
  | .singleQuoted, _, [] => none
  | .doubleQuoted, _, [] => none
  | .doubleQuotedBackslash, _, [] => none
  | .comment, _, [] => some []
  | .delimiter, word, c :: rest =>
    if c = '\x27' then splitFrom .singleQuoted word rest
    else if c = '\x22' then splitFrom .doubleQuoted word rest
    else if c = '\\' then splitFrom .delimiterBackslash word rest
    else if isDelimiter c then splitFrom .delimiter word rest
    else if c = '#' then splitFrom .comment word rest
    else splitFrom .unquoted (c :: word) rest
  | .delimiterBackslash, word, c :: rest =>
    if c = '\n' then splitFrom .delimiter word rest else splitFrom .unquoted (c :: word) rest
  | .unquoted, word, c :: rest =>
    if c = '\x27' then splitFrom .singleQuoted word rest
    else if c = '\x22' then splitFrom .doubleQuoted word rest
    else if c = '\\' then splitFrom .unquotedBackslash word rest
    else if isDelimiter c then (splitFrom .delimiter [] rest).map (word.reverse :: ·)
    else splitFrom .unquoted (c :: word) rest
  | .unquotedBackslash, word, c :: rest =>
    if c = '\n' then splitFrom .unquoted word rest else splitFrom .unquoted (c :: word) rest
  | .singleQuoted, word, c :: rest =>
    if c = '\x27' then splitFrom .unquoted word rest else splitFrom .singleQuoted (c :: word) rest
  | .doubleQuoted, word, c :: rest =>
    if c = '\x22' then splitFrom .unquoted word rest
    else if c = '\\' then splitFrom .doubleQuotedBackslash word rest
    else splitFrom .doubleQuoted (c :: word) rest
  | .doubleQuotedBackslash, word, c :: rest =>
    if c = '\n' then splitFrom .doubleQuoted word rest
    else if isEscapable c then splitFrom .doubleQuoted (c :: word) rest
    else splitFrom .doubleQuoted (c :: '\\' :: word) rest
  | .comment, word, c :: rest =>
    if c = '\n' then splitFrom .delimiter word rest else splitFrom .comment word rest

/-- The words of a command line, unless a quote is not closed. -/
def split? (line : String) : Option (List String) :=
  (splitFrom .delimiter [] line.toList).map (·.map String.ofList)

/-- What is wrong with a line that cannot be split. -/
def unclosedQuote : String := "missing closing quote"

/-! ## Joining -/

/-- Whether a character needs quotes. -/
def isSpecial (c : Char) : Bool := "|&;<>()$\x60\\\x22\x27 \t\n*?[#~=%".toList.contains c

/-- A character inside single quotes: a quote is written outside them. -/
def quoteChar (c : Char) : List Char := if c = '\x27' then ['\x27', '\\', '\x27', '\x27'] else [c]

/-- A word as it is written on a command line. -/
def quote (word : List Char) : List Char :=
  if word = [] ∨ word.any isSpecial then '\x27' :: (word.flatMap quoteChar ++ ['\x27']) else word

/-- A command line that splits into the given words. -/
def join (words : List String) : String :=
  " ".intercalate (words.map fun word => String.ofList (quote word.toList))

end BenchHarness.Words
