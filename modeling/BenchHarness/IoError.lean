/-!
# Input and output errors

What can go wrong when a file, a directory, a process or a stream is used, and how it is worded.
-/

namespace BenchHarness

/-- The system's error numbers that file and process operations give. -/
inductive Errno where
  | noEntry
  | badDescriptor
  | execFormat
  | accessDenied
  | alreadyExists
  | notDirectory
  | isDirectory
  | invalid
  | noSpace
  | readOnly
  | brokenPipe
  | nameTooLong
  | notEmpty
  | tooManyLinks
  deriving DecidableEq, Repr

namespace Errno

/-- The number of an error. -/
def number : Errno → Nat
  | noEntry => 2
  | badDescriptor => 9
  | execFormat => 8
  | accessDenied => 13
  | alreadyExists => 17
  | notDirectory => 20
  | isDirectory => 21
  | invalid => 22
  | noSpace => 28
  | readOnly => 30
  | brokenPipe => 32
  | nameTooLong => 36
  | notEmpty => 39
  | tooManyLinks => 40

/-- What an error says. -/
def text : Errno → String
  | noEntry => "No such file or directory"
  | badDescriptor => "Bad file descriptor"
  | execFormat => "Exec format error"
  | accessDenied => "Permission denied"
  | alreadyExists => "File exists"
  | notDirectory => "Not a directory"
  | isDirectory => "Is a directory"
  | invalid => "Invalid argument"
  | noSpace => "No space left on device"
  | readOnly => "Read-only file system"
  | brokenPipe => "Broken pipe"
  | nameTooLong => "File name too long"
  | notEmpty => "Directory not empty"
  | tooManyLinks => "Too many levels of symbolic links"

end Errno

/-- Why an input or output operation failed. -/
inductive IoError where
  /-- The system refused. -/
  | system (errno : Errno)
  /-- A path with a NUL byte cannot be handed to the system. -/
  | nulInPath
  /-- A command word with a NUL byte cannot be handed to the system. -/
  | nulInCommand
  /-- A text that had to be read was not UTF-8. -/
  | notUtf8
  /-- The other end gave up, with an explanation of its own. -/
  | refused (reason : String)
  /-- An error of another component, with what caused it, the outermost cause first. -/
  | wrapped (reason : String) (causes : List String)
  deriving DecidableEq, Repr

/-- The wording of an error. -/
def IoError.message : IoError → String
  | .system e => e.text ++ " (os error " ++ toString e.number ++ ")"
  | .nulInPath => "file name contained an unexpected NUL byte"
  | .nulInCommand => "nul byte found in provided data"
  | .notUtf8 => "stream did not contain valid UTF-8"
  | .refused reason => reason
  | .wrapped reason _ => reason

/-- The wording of an error and of what caused it, the outermost first. -/
def IoError.chain (e : IoError) : List String :=
  e.message ::
    match e with
    | .wrapped _ causes => causes
    | .system _ | .nulInPath | .nulInCommand | .notUtf8 | .refused _ => []

end BenchHarness
