import BenchHarness.Text.Search

/-!
# Which files are test benches

A classifier decides about paths in normal form: relative to the discovery root, `/` between names,
no leading `./`, the root itself the empty text. Discovery takes any classifier;
`SubstringRule` is the one a configuration describes.
-/

namespace BenchHarness

/-- A rule for what is collected as a test bench. -/
structure Classifier where
  /-- Files directly inside such a directory are not collected; what lies deeper still can be. -/
  excludesDir : String → Bool
  /-- Whether the file at a path is an entry point. -/
  accepts : String → Bool
  /-- The file name that every entry point has. -/
  entryPoint : String

/-- A rule by plain text comparison: an entry point starts with no blacklisted text, ends with the
entry point name and contains the ancestor segment. -/
structure SubstringRule where
  blacklist : List String
  ancestorSegment : String
  entryPoint : String
  deriving DecidableEq, Repr

namespace SubstringRule

/-- Whether a path starts with a blacklisted text. -/
def isBlacklisted (rule : SubstringRule) (path : String) : Bool :=
  rule.blacklist.any (Text.startsWith path ·)

/-- Whether a path is an entry point by this rule. -/
def accepts (rule : SubstringRule) (path : String) : Bool :=
  ! rule.isBlacklisted path && Text.endsWith path rule.entryPoint
    && Text.contains rule.ancestorSegment path

/-- The rule as a classifier. -/
def classifier (rule : SubstringRule) : Classifier where
  excludesDir := rule.isBlacklisted
  accepts := rule.accepts
  entryPoint := rule.entryPoint

end SubstringRule

end BenchHarness
