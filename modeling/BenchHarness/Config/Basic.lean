import BenchHarness.Classifier
import BenchHarness.Config.Problem
import BenchHarness.Config.Setting
import BenchHarness.Text.Quoted
import BenchHarness.Words

/-!
# Configurations

A configuration says which files are test benches, how they are launched, and what they print on
success. It is read from layered settings, and what it holds is checked.
-/

namespace BenchHarness

/-- The command that launches an entry point: a program and its first arguments. -/
structure Launcher where
  program : String
  arguments : List String
  deriving DecidableEq, Repr

namespace Launcher

/-- The words of the command. -/
def words (l : Launcher) : List String := l.program :: l.arguments

/-- The launcher of a command line: at least one word is needed. -/
def ofLine (key line : String) : Except ConfigProblem Launcher :=
  match Words.split? line with
  | none => .error (.badLauncher line)
  | some [] => .error (.emptyValue key)
  | some (program :: arguments) => .ok ⟨program, arguments⟩

end Launcher

/-- A configuration. -/
structure Config where
  /-- Which files are test benches. -/
  rule : SubstringRule
  launcher : Launcher
  /-- What a test prints to pass. -/
  marker : String
  deriving DecidableEq, Repr

/-! ## Reading settings -/

namespace Setting

/-- What a setting is called in messages about its shape. -/
def found : Setting → String
  | .unset => "unit value"
  | .boolean b => "boolean \x60" ++ toString b ++ "\x60"
  | .integer n => "integer \x60" ++ toString n ++ "\x60"
  | .float x => "floating point \x60" ++ x.text .pointed ++ "\x60"
  | .text s => "string " ++ Text.quoted s
  | .list _ _ => "sequence"
  | .table _ _ => "map"

/-- A setting as a text: numbers and truth values are written out. -/
def readText (key : String) : Setting → Except ConfigProblem String
  | .text s => .ok s
  | .boolean b => .ok (toString b)
  | .integer n => .ok (toString n)
  | .float x => .ok (x.text .positional)
  | .unset => .error (.notText "unit value" key none)
  | .list source _ => .error (.notText "sequence" key source)
  | .table source _ => .error (.notText "map" key source)

/-- The key of a list's item. -/
def itemKey (key : String) (n : Nat) : String := key ++ "[" ++ toString n ++ "]"

/-- The key of a table's member. -/
def memberKey (key name : String) : String := key ++ "." ++ name

/-- A setting of an unwanted shape. -/
def mismatch (key wanted : String) (s : Setting) : ConfigProblem :=
  .wrongShape ("invalid type: " ++ s.found ++ ", expected " ++ wanted) key

/-- A setting as a list of texts. -/
def readTexts (key : String) (s : Setting) : Except ConfigProblem (List String) :=
  match s with
  | .list _ items => items.mapIdx (fun n item => readText (itemKey key n) item) |>.mapM id
  | s => .error (mismatch key "a sequence" s)

/-- A field of a section that is filled in piece by piece. -/
structure Field (δ : Type) where
  name : String
  isSet : δ → Bool
  /-- Reads the field from its setting; the key is for messages. -/
  read : (key : String) → Setting → δ → Except ConfigProblem δ

/-- Reads the members of a table in order, passing over unknown ones. -/
def readMembers {δ : Type} (key : String) (fields : List (Field δ)) :
    List (String × Setting) → δ → Except ConfigProblem δ
  | [], d => .ok d
  | (name, value) :: rest, d =>
    match fields.find? (·.name = name) with
    | some field => do readMembers key fields rest (← field.read (memberKey key name) value d)
    | none => readMembers key fields rest d

/-- Reads the fields from the items of a list, in order; further items are passed over. -/
def readItems {δ : Type} (key wanted : String) (size : Nat) :
    (index : Nat) → List (Field δ) → List Setting → δ → Except ConfigProblem δ
  | _, [], _, d => .ok d
  | index, _ :: _, [], _ =>
    .error (.wrongShape ("invalid length " ++ toString index ++ ", expected " ++ wanted ++
      " with " ++ toString size ++ " elements") key)
  | index, field :: more, value :: rest, d => do
    readItems key wanted size (index + 1) more rest (← field.read (itemKey key index) value d)

/-- Reads a section: a table of its fields, or a list of them in order. -/
def readSection {δ : Type} (key wanted : String) (fields : List (Field δ)) (empty : δ)
    (s : Setting) : Except ConfigProblem δ :=
  match s with
  | .table _ members => do
    let d ← readMembers key fields members empty
    match fields.find? (! ·.isSet d) with
    | some field => throw (.missing (memberKey key field.name))
    | none => pure d
  | .list _ items => readItems key wanted fields.length 0 fields items empty
  | s => .error (mismatch key wanted s)

end Setting

namespace Config

/-- The section on discovery being read. -/
structure DiscoveryDraft where
  entryPoint : Option String
  ancestorSegment : Option String
  blacklist : Option (List String)

/-- The fields of the section on discovery. -/
def discoveryFields : List (Setting.Field DiscoveryDraft) := [
  { name := "entry-point", isSet := fun d => d.entryPoint.isSome
    read := fun key s d => do pure { d with entryPoint := some (← s.readText key) } },
  { name := "ancestor-segment", isSet := fun d => d.ancestorSegment.isSome
    read := fun key s d => do pure { d with ancestorSegment := some (← s.readText key) } },
  { name := "blacklist", isSet := fun d => d.blacklist.isSome
    read := fun key s d => do pure { d with blacklist := some (← s.readTexts key) } }]

/-- The section on execution being read. -/
structure ExecutionDraft where
  launcher : Option String
  marker : Option String

/-- The fields of the section on execution. -/
def executionFields : List (Setting.Field ExecutionDraft) := [
  { name := "launcher", isSet := fun d => d.launcher.isSome
    read := fun key s d => do pure { d with launcher := some (← s.readText key) } },
  { name := "success-marker", isSet := fun d => d.marker.isSome
    read := fun key s d => do pure { d with marker := some (← s.readText key) } }]

/-- Checks the texts of a configuration: the entry point and the marker must not be empty, and the
launcher must have a word. -/
def check (rule : SubstringRule) (launcher marker : String) : Except ConfigProblem Config :=
  if rule.entryPoint = "" then .error (.emptyValue "discovery.entry-point")
  else if marker = "" then .error (.emptyValue "execution.success-marker")
  else (Launcher.ofLine "execution.launcher" launcher).map fun l => ⟨rule, l, marker⟩

/-- The configuration that settings describe. -/
def ofSettings (s : Setting) : Except ConfigProblem Config := do
  let (_, members) := s.asTable
  let part (key : String) : Setting := (Setting.find? members key).getD .unset
  let d ← (part "discovery").readSection "discovery" "struct DiscoveryConfig" discoveryFields
    ⟨none, none, none⟩
  let e ← (part "execution").readSection "execution" "struct ExecutionConfigDeserialize"
    executionFields ⟨none, none⟩
  check ⟨d.blacklist.getD [], d.ancestorSegment.getD "", d.entryPoint.getD ""⟩
    (e.launcher.getD "") (e.marker.getD "")

/-! ## Defaults -/

/-- The settings that hold where no source says otherwise. -/
def defaultSettings : Setting :=
  .table none [
    ("discovery", .table none [
      ("entry-point", .text "go.sh"),
      ("ancestor-segment", .text "sim"),
      ("blacklist", .list none [.text ".git", .text ".idea", .text "template"])]),
    ("execution", .table none [
      ("launcher", .text "sh"),
      ("success-marker", .text "<<TB_SUCCESS>>")])]

/-- The configuration that holds where no source says otherwise. -/
def default : Config where
  rule := ⟨[".git", ".idea", "template"], "sim", "go.sh"⟩
  launcher := ⟨"sh", []⟩
  marker := "<<TB_SUCCESS>>"

/-- The configuration of a document laid over the defaults. -/
def ofDocument (source : String) (members : Toml.Members) : Except ConfigProblem Config :=
  ofSettings (defaultSettings.overlaySource (Setting.ofMembers (some source) members))

end Config

end BenchHarness
