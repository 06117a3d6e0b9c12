import BenchHarness.Config.Basic
import BenchHarness.Machine.Files
import BenchHarness.Path
import BenchHarness.Toml.Document

/-!
# Where a configuration comes from

A configuration file is the one that is named, or else the one at its usual place below the
discovery root. A file that is missing under its name is looked for with `.toml` added to its name.
Only a named file must be there.
-/

namespace BenchHarness.Config

/-- Where the configuration of a root is, relative to the root. -/
def usualFile : String := ".config/simtest.toml"

/-- The path of a file, read from the directory whose absolute path is `base`. -/
def absolutePath (base : Bytes) (file : String) : Bytes :=
  let path := Utf8.encode file
  if path.head? = some Route.slash then path
  else if base.getLast? = some Route.slash then base ++ path
  else base ++ [Route.slash] ++ path

/-- What a path without a last name is given for one. -/
def namelessFile : String := ".placeholder"

/-- The path with `.toml` added to its last name. -/
def withExtension (path : Bytes) : Bytes :=
  let named := if path.getLast? = some Route.slash then path ++ Utf8.encode namelessFile else path
  named ++ Utf8.encode ".toml"

/-- The names of an absolute path after those it shares with a directory, with a step up for each
name of the directory that it does not share. -/
def relativeTo : List Path.Component → List Path.Component → List Path.Component
  | p :: path, b :: base =>
    if p = b then relativeTo path base else (b :: base).map (fun _ => .parent) ++ p :: path
  | path, base => base.map (fun _ => .parent) ++ path

/-- The text of a step of a path. -/
def stepText : Path.Component → List Char
  | .root => []
  | .current => ['.']
  | .parent => ['.', '.']
  | .normal name => name

/-- How a file is called in messages: by its path from the working directory. -/
def shownPath (base path : Bytes) : String :=
  let components (p : Bytes) := Path.components (Utf8.decodeLossy p)
  String.ofList (Pieces.glue '/' ((relativeTo (components path) (components base)).map stepText))

/-- The byte order mark. -/
def byteOrderMark : Bytes := [0xef, 0xbb, 0xbf]

/-- The text of a file's content: a byte order mark at the front is dropped. -/
def contentText (content : Bytes) : String :=
  Utf8.decodeLossy (if byteOrderMark.isPrefixOf content then content.drop 3 else content)

/-- The absolute path under which a file is found, given the working directory. -/
def findFile (files : Files) (base : DirId) (file : String) : Except IoError Bytes := do
  let path := absolutePath (← if Path.isAbsolute file then pure [] else files.pathOf base) file
  if files.isFile base path then pure path
  else
    let other := withExtension path
    if files.isFile base other then pure other
    else throw (.refused ("configuration file \x22" ++ file ++ "\x22 not found"))

/-- The content of a file and the name it has in messages. -/
def readSource (files : Files) (base : DirId) (file : String) :
    Except IoError (String × String) := do
  let path ← findFile files base file
  let content ← files.contentAt base path
  let shown := match files.pathOf base with
    | .ok here => shownPath here path
    | .error _ => Utf8.decodeLossy path
  pure (shown, contentText content)

/-- The configuration of a text, laid over the defaults. -/
def ofText (source text : String) : Except ConfigProblem Config :=
  match Toml.parse? text with
  | none => .error .notToml
  | some members => ofDocument source members

/-- The configuration for a discovery root: of the named file, or else of the file at its usual
place if there is one. -/
def fromSources (files : Files) (base : DirId) (root : String) (named : Option String) :
    Except ConfigError Config :=
  let file := named.getD (Path.join root usualFile)
  let result : Except ConfigProblem Config :=
    match readSource files base file, named with
    | .ok (source, text), _ => ofText source text
    | .error _, none => ofSettings defaultSettings
    | .error e, some _ => .error (.unusable e.message)
  result.mapError (⟨file, ·⟩)

end BenchHarness.Config
