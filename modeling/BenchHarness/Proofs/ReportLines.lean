import BenchHarness.Proofs.Arrival
import BenchHarness.Proofs.Pieces

/-!
# Reading a report

A report without colour can be read again line by line. Here are readers for its parts, which know
nothing of the events it was written from, and what each of them finds in the text of an event: the
bullets in the header of a run (`Report.headerBullets_text`), the verdict on a test and whom it is
about (`Report.headedBy_text`, `Report.path_prefix_text`), and the counts, the banner and the failed
directories of a summary (`Report.countsOf_text`, `Report.banner_mem_text_iff`,
`Report.failedBullets_text`).
-/

namespace BenchHarness

/-! ## Plain text -/

namespace Styled

/-- No span is decorated. -/
def Plain (t : Styled) : Prop := ∀ span ∈ t, span.style = .plain

/-- The characters of a text, without its decoration. -/
def chars (t : Styled) : List Char := t.bare.toList

theorem chars_eq_flatMap (t : Styled) : t.chars = t.flatMap (·.text.toList) := by
  rw [chars, bare, String.toList_join, List.flatMap_map]

theorem Plain.append {t t' : Styled} (plain : t.Plain) (plain' : t'.Plain) : (t ++ t').Plain := by
  intro span member
  rcases List.mem_append.mp member with h | h
  · exact plain span h
  · exact plain' span h

theorem Plain.flatMap {α : Type} {f : α → Styled} {l : List α} (plain : ∀ a ∈ l, (f a).Plain) :
    Plain (l.flatMap f) := by
  intro span member
  obtain ⟨a, ha, h⟩ := List.mem_flatMap.mp member
  exact plain a ha span h

theorem render_eq_bare {t : Styled} (plain : t.Plain) : t.render = t.bare := by
  rw [render, bare]
  refine congrArg String.join (List.map_congr_left ?_)
  intro span member
  rw [Span.render, plain span member]
  rfl

end Styled

namespace Report

theorem selectionHeader_plain (s : Selection) : (selectionHeader .plain s).Plain := by
  have entries : (entryLines .plain s.entries).Plain :=
    .flatMap fun e _ => by simp [Styled.Plain, Span.plain, Theme.plain]
  unfold selectionHeader
  cases s.action with
  | showHelp => exact fun _ h => absurd h List.not_mem_nil
  | listOnly => exact fun _ h => absurd h List.not_mem_nil
  | runAll =>
    exact .append (.append (by simp [Styled.Plain, Span.plain, Theme.plain]) entries)
      (by simp [Styled.Plain, Span.plain])
  | runFiltered text =>
    exact .append (.append (by simp [Styled.Plain, Span.plain, Theme.plain, count]) entries)
      (by simp [Styled.Plain, Span.plain])

theorem verdict_plain (o : Outcome) : (verdict .plain o).Plain := by
  unfold verdict
  cases o.failure with
  | some failure =>
    exact .append (by simp [Styled.Plain, Span.plain, Theme.plain])
      (.flatMap fun _ _ => by simp [Styled.Plain, Span.plain, Theme.plain])
  | none => simp [Styled.Plain, Span.plain, Theme.plain, markerCount, count]

/-- A report without colour has no decoration at all. -/
theorem event_plain (e : Event) : (event .plain e).Plain := by
  cases e with
  | runStarted s =>
    exact .append (.append (selectionHeader_plain s)
      (by simp [Styled.Plain, Span.plain, Theme.plain, head]))
      (by simp [Styled.Plain, Span.plain, Theme.plain, count])
  | testStarted entry workingDir => simp [event, Styled.Plain, Span.plain, Theme.plain]
  | testFinished o =>
    refine .append (.append ?_ (by simp [Styled.Plain, Span.plain, Theme.plain])) (verdict_plain o)
    cases o.passed with
    | true => simp [Styled.Plain, Span.plain, Theme.plain, head]
    | false => simp [Styled.Plain, Span.plain, Theme.plain, head]
  | runFinished s elapsed =>
    refine .append (.append (.append (by simp [Styled.Plain, Span.plain]) ?_) ?_) ?_
    · simp [Styled.Plain, Span.plain, Theme.plain, head]
    · simp [Styled.Plain, Span.plain, Theme.plain, count]
    · split
      · simp [Styled.Plain, Span.plain, Theme.plain]
      · exact .append (by simp [Styled.Plain, Span.plain, Theme.plain])
          (.flatMap fun _ _ => by simp [Styled.Plain, Span.plain, Theme.plain, failedDir])

/-! ## Lines -/

/-- The characters of a text. -/
def read (text : Bytes) : List Char := (Utf8.decodeLossy text).toList

def linesOf (text : Bytes) : List (List Char) := Pieces.split '\n' (read text)

theorem read_text (e : Event) : read (text .plain e) = (event .plain e).chars := by
  rw [read, text, Utf8.decodeLossy_encode, Styled.render_eq_bare (event_plain e), Styled.chars]

/-- Lines that are each ended by a line end are found again in front of what follows. -/
theorem split_lines {lines : List (List Char)} (absent : ∀ line ∈ lines, '\n' ∉ line)
    (rest : List Char) :
    Pieces.split '\n' (lines.flatMap (· ++ "\n".toList) ++ rest) =
      lines ++ Pieces.split '\n' rest := by
  have lineEnd : "\n".toList = ['\n'] := by decide
  rw [lineEnd]
  induction lines with
  | nil => rfl
  | cons line lines ih =>
    rw [List.flatMap_cons, List.append_assoc, List.append_assoc, List.singleton_append,
      Pieces.split_append_cons, Pieces.split_of_not_mem (absent line List.mem_cons_self),
      ih fun l hl => absent l (List.mem_cons_of_mem line hl)]
    rfl

/-! ## Numbers and durations -/

theorem isDigit_of_mem_number (n : Nat) {c : Char} (member : c ∈ (toString n).toList) :
    c.isDigit = true := by
  simp only [Nat.toString_eq_repr, Nat.toList_repr] at member
  exact Nat.isDigit_of_mem_toDigits (by decide) (by decide) member

theorem not_mem_number (n : Nat) : '\n' ∉ (toString n).toList :=
  fun member => absurd (isDigit_of_mem_number n member) (by decide)

theorem toList_pushn (c : Char) (n : Nat) : ("".pushn c n).toList = List.replicate n c := by
  induction n with
  | zero => rfl
  | succ n ih =>
    have hpush : "".pushn c (n + 1) = ("".pushn c n).push c := rfl
    rw [hpush, String.toList_push, ih, List.replicate_succ']

/-- What a duration is written with, up to its closing bracket. -/
def Clocked (c : Char) : Prop := c.isDigit = true ∨ c ∈ [' ', '.', '0', 'i', 'n', 'f', '[', 's']

theorem not_clocked_lineEnd : ¬ Clocked '\n' := by
  rintro (h | h)
  · exact absurd h (by decide)
  · exact absurd h (by decide)

theorem not_clocked_bracket : ¬ Clocked ']' := by
  rintro (h | h)
  · exact absurd h (by decide)
  · exact absurd h (by decide)

theorem clocked_of_mem_fixed (places : Nat) (x : Binary64) {c : Char}
    (member : c ∈ (x.fixed places).toList) : Clocked c := by
  unfold Binary64.fixed at member
  split at member
  · have letters : "inf".toList = ['i', 'n', 'f'] := by simp
    rw [letters] at member
    have infinite : ∀ c ∈ ['i', 'n', 'f'], c ∈ [' ', '.', '0', 'i', 'n', 'f', '[', 's'] := by simp
    exact .inr (infinite c member)
  · rw [String.toList_append, List.mem_append] at member
    rcases member with whole | fraction
    · exact .inl (isDigit_of_mem_number _ whole)
    · split at fraction
      · exact absurd fraction (by simp)
      · rw [String.toList_append, List.mem_append, paddedDigits] at fraction
        rcases fraction with point | padded
        · rw [List.mem_singleton.mp point]
          exact .inr (by decide)
        · rw [String.toList_append, List.mem_append, toList_pushn] at padded
          rcases padded with zeros | rest
          · rw [List.eq_of_mem_replicate zeros]
            exact .inr (by decide)
          · exact .inl (isDigit_of_mem_number _ rest)

/-- A duration ends with its only closing bracket and a blank. -/
theorem toList_duration (n : Nat) : ∃ clock, (Duration.text n).toList = clock ++ [']', ' '] ∧
    ∀ c ∈ clock, Clocked c := by
  refine ⟨'[' :: ((Text.alignRight 8 ((Duration.seconds n).fixed 3)).toList ++ ['s']), ?_, ?_⟩
  · have opening : "[".toList = ['['] := by decide
    have closing : "s] ".toList = ['s', ']', ' '] := by decide
    simp only [Duration.text, String.toList_append]
    rw [opening, closing]
    simp only [List.append_assoc, List.cons_append, List.nil_append]
  · intro c member
    rcases List.mem_cons.mp member with rfl | member
    · exact .inr (by decide)
    · rcases List.mem_append.mp member with padded | unit
      · rw [Text.alignRight, String.toList_append, List.mem_append, toList_pushn] at padded
        rcases padded with blanks | number
        · rw [List.eq_of_mem_replicate blanks]
          exact .inr (by decide)
        · exact clocked_of_mem_fixed 3 _ number
      · rw [List.mem_singleton.mp unit]
        exact .inr (by decide)

/-! ## The header of a run -/

def bulletMark : String := "  --> "

/-- The bullets at the front of some lines. -/
def bulletsOf (lines : List (List Char)) : List (List Char) :=
  (lines.takeWhile bulletMark.toList.isPrefixOf).map (·.drop bulletMark.toList.length)

/-- The bullets in the header of a run: the last thing in it before the line on how many tests are
started, which a blank line divides from them. -/
def headerBullets (header : Bytes) : List (List Char) :=
  (bulletsOf ((linesOf header).reverse.drop 3)).reverse

/-- The line on how many tests are started. -/
def startingLine (header : Bytes) : List Char := ((linesOf header).reverse.drop 1).headD []

theorem bulletsOf_append (items : List (List Char)) {blank : List Char} (rest : List (List Char))
    (ends : bulletMark.toList.isPrefixOf blank = false) :
    bulletsOf (items.map (bulletMark.toList ++ ·) ++ blank :: rest) = items := by
  induction items with
  | nil => simp [bulletsOf, ends]
  | cons item items ih =>
    have hitem : bulletMark.toList.isPrefixOf (bulletMark.toList ++ item) = true := by
      rw [List.isPrefixOf_iff_prefix]
      exact List.prefix_append _ _
    rw [bulletsOf] at ih ⊢
    rw [List.map_cons, List.cons_append, List.takeWhile_cons, if_pos hitem, List.map_cons, ih,
      List.drop_left]

theorem chars_entryLines (entries : List Entry) :
    (entryLines .plain entries).chars =
      (entries.map fun e => bulletMark.toList ++ e.path.toList).flatMap (· ++ "\n".toList) := by
  rw [entryLines, Styled.chars_eq_flatMap, List.flatMap_assoc, List.flatMap_map]
  refine List.flatMap_congr ?_
  intro e _
  simp only [Span.plain, bulletMark, List.flatMap_cons, List.flatMap_nil, List.append_assoc,
    List.append_nil]

theorem chars_append (t t' : Styled) : Styled.chars (t ++ t') = t.chars ++ Styled.chars t' := by
  simp only [Styled.chars_eq_flatMap, List.flatMap_append]

theorem chars_cons (span : Span) (t : Styled) :
    Styled.chars (span :: t) = span.text.toList ++ t.chars := by
  simp only [Styled.chars_eq_flatMap, List.flatMap_cons]

theorem chars_nil : Styled.chars [] = [] := by
  rw [Styled.chars_eq_flatMap, List.flatMap_nil]

/-- The lines of a header from the blank line in front of the bullets to the one after them. -/
def headerLines (s : Selection) : List (List Char) :=
  [] :: s.entries.map (fun e => bulletMark.toList ++ e.path.toList) ++ [[]]

/-- Whatever stands above the bullets, they come after a blank line and before another one. -/
theorem chars_selectionHeader {s : Selection} (runs : s.action.runsTests = true) :
    ∃ title, (selectionHeader .plain s).chars =
      title ++ ("\n".toList ++ (headerLines s).flatMap (· ++ "\n".toList)) := by
  unfold selectionHeader
  cases action : s.action with
  | showHelp => simp [action, Action.runsTests] at runs
  | listOnly => simp [action, Action.runsTests] at runs
  | runAll =>
    have blank : "\n\n" = "\n" ++ "\n" := by decide +kernel
    refine ⟨"\n".toList ++ "Running all tests:".toList, ?_⟩
    rw [blank]
    simp only [chars_append, chars_cons, chars_nil, chars_entryLines, headerLines, Span.plain,
      String.toList_append, List.cons_append, List.flatMap_cons, List.flatMap_append,
      List.flatMap_nil, List.nil_append, List.append_nil, List.append_assoc]
  | runFiltered text =>
    have closing : " were found:\n\n" = " were found:" ++ ("\n" ++ "\n") := by decide +kernel
    refine ⟨"\n".toList ++ ((toString s.entries.length).toList ++ (" tests with ".toList ++
      (text.toList ++ " were found:".toList))), ?_⟩
    rw [closing]
    simp only [chars_append, chars_cons, chars_nil, chars_entryLines, headerLines, count,
      Span.plain, String.toList_append, List.cons_append, List.flatMap_cons, List.flatMap_append,
      List.flatMap_nil, List.nil_append, List.append_nil, List.append_assoc]

/-- The line on how many tests are started under a root. -/
def starting (n : Nat) (root : String) : List Char :=
  ("    Starting " ++ toString n ++ " tests under " ++ root).toList

theorem not_mem_starting (n : Nat) {root : String} (rootLine : '\n' ∉ root.toList) :
    '\n' ∉ starting n root := by
  simp only [starting, String.toList_append, List.mem_append, not_or]
  exact ⟨⟨⟨by decide, not_mem_number n⟩, by decide⟩, rootLine⟩

theorem chars_runStarted (s : Selection) :
    (event .plain (.runStarted s)).chars = (selectionHeader .plain s).chars ++
      (starting s.entries.length s.root ++ "\n".toList) := by
  have word : "    Starting " = Text.alignRight 12 "Starting" ++ " " := by decide +kernel
  rw [starting, word]
  simp only [event, Report.head, count, Span.plain, chars_append, chars_cons, chars_nil,
    String.toList_append, List.append_nil, List.append_assoc]

variable {s : Selection}

/-- A header has the bullets between two blank lines, and the line on how many tests are started. -/
theorem linesOf_header (runs : s.action.runsTests = true) (rootLine : '\n' ∉ s.root.toList)
    (pathLines : ∀ e ∈ s.entries, '\n' ∉ e.path.toList) :
    ∃ title, linesOf (text .plain (.runStarted s)) =
      title ++ (headerLines s ++ [starting s.entries.length s.root, []]) := by
  obtain ⟨title, htitle⟩ := chars_selectionHeader runs
  have absent : ∀ line ∈ headerLines s ++ [starting s.entries.length s.root], '\n' ∉ line := by
    simp only [headerLines, List.cons_append, List.mem_cons, List.mem_append, List.mem_map,
      List.not_mem_nil, or_false]
    rintro line (rfl | (⟨e, he, rfl⟩ | rfl) | rfl)
    · exact List.not_mem_nil
    · rw [List.mem_append, not_or]
      exact ⟨by decide, pathLines e he⟩
    · exact List.not_mem_nil
    · exact not_mem_starting s.entries.length rootLine
  have lineEnd : "\n".toList = ['\n'] := by decide
  refine ⟨Pieces.split '\n' title, ?_⟩
  calc linesOf (text .plain (.runStarted s))
      = Pieces.split '\n' (title ++ '\n' :: ((headerLines s ++
          [starting s.entries.length s.root]).flatMap (· ++ "\n".toList) ++ [])) := by
        rw [linesOf, read_text, chars_runStarted, htitle, lineEnd]
        simp only [List.flatMap_append, List.flatMap_cons, List.flatMap_nil, List.append_assoc,
          List.append_nil, List.cons_append, List.nil_append]
    _ = Pieces.split '\n' title ++ (headerLines s ++ [starting s.entries.length s.root, []]) := by
        rw [Pieces.split_append_cons, split_lines absent, List.append_assoc]
        rfl

theorem headerBullets_text (runs : s.action.runsTests = true) (rootLine : '\n' ∉ s.root.toList)
    (pathLines : ∀ e ∈ s.entries, '\n' ∉ e.path.toList) :
    headerBullets (text .plain (.runStarted s)) = s.entries.map (·.path.toList) := by
  obtain ⟨title, htitle⟩ := linesOf_header runs rootLine pathLines
  have hreversed : (linesOf (text .plain (.runStarted s))).reverse.drop 3 =
      (s.entries.reverse.map (·.path.toList)).map (bulletMark.toList ++ ·) ++
        [] :: title.reverse := by
    rw [htitle]
    simp [headerLines, List.map_reverse, Function.comp_def]
  rw [headerBullets, hreversed, bulletsOf_append _ _ (by decide), List.map_reverse,
    List.reverse_reverse]

theorem startingLine_text (runs : s.action.runsTests = true) (rootLine : '\n' ∉ s.root.toList)
    (pathLines : ∀ e ∈ s.entries, '\n' ∉ e.path.toList) :
    startingLine (text .plain (.runStarted s)) = starting s.entries.length s.root := by
  obtain ⟨title, htitle⟩ := linesOf_header runs rootLine pathLines
  rw [startingLine, htitle]
  simp

/-! ## The texts about a test -/

/-- The line that announces a test. -/
def announcement (path dir : String) : List Char :=
  ("       START             " ++ path ++ " (cd to " ++ dir ++ ")\n").toList

theorem read_testStarted (entry : Entry) (dir : String) :
    read (text .plain (.testStarted entry dir)) = announcement entry.path dir := by
  have word : "       START             " = Text.alignRight 12 "START" ++ "".pushn ' ' 13 := by
    decide +kernel
  rw [read_text, announcement, word]
  simp only [event, Span.plain, chars_cons, chars_nil, String.toList_append, List.append_nil,
    List.append_assoc]

def passMark : String := "        PASS "

def failMark : String := "        FAIL "

/-- Whether a text starts with a mark. -/
def headedBy (mark : String) (text : Bytes) : Bool := mark.toList.isPrefixOf (read text)

/-- What comes after a duration. -/
def afterDuration (line : List Char) : List Char := (line.dropWhile (· ≠ ']')).drop 2

theorem afterDuration_append {before : List Char} (absent : ']' ∉ before) (n : Nat)
    (rest : List Char) :
    afterDuration (before ++ ((Duration.text n).toList ++ rest)) = rest := by
  obtain ⟨clock, hclock, clocked⟩ := toList_duration n
  have passed : ∀ c ∈ before ++ clock, decide (c ≠ ']') = true := by
    intro c member
    refine decide_eq_true ?_
    rintro rfl
    rcases List.mem_append.mp member with h | h
    · exact absent h
    · exact not_clocked_bracket (clocked _ h)
  rw [hclock, afterDuration, List.append_assoc, ← List.append_assoc,
    List.dropWhile_append_of_pos passed]
  rfl

theorem chars_testFinished (o : Outcome) :
    (event .plain (.testFinished o)).chars = (if o.passed then passMark else failMark).toList ++
      ((Duration.text o.elapsed).toList ++ ((o.entry.path ++ ": ").toList ++
        (verdict .plain o).chars)) := by
  have pass : passMark = Text.alignRight 12 "PASS" ++ " " := by decide +kernel
  have fail : failMark = Text.alignRight 12 "FAIL" ++ " " := by decide +kernel
  rw [event, finishedHead, pass, fail]
  cases o.passed with
  | true =>
    simp only [if_true, Report.head, Span.plain, chars_append, chars_cons, chars_nil,
      String.toList_append, List.append_nil, List.append_assoc]
  | false =>
    simp only [Bool.false_eq_true, if_false, Report.head, Span.plain, chars_append, chars_cons,
      chars_nil, String.toList_append, List.append_nil, List.append_assoc]

/-- The text about a finished test is headed by its verdict. -/
theorem headedBy_text (o : Outcome) :
    headedBy passMark (text .plain (.testFinished o)) = o.passed ∧
      headedBy failMark (text .plain (.testFinished o)) = ! o.passed := by
  rw [headedBy, headedBy, read_text, chars_testFinished]
  cases o.passed with
  | true => exact ⟨by rfl, by rfl⟩
  | false => exact ⟨by rfl, by rfl⟩

theorem path_prefix_text (o : Outcome) :
    (o.entry.path ++ ": ").toList <+: afterDuration (read (text .plain (.testFinished o))) := by
  have marks : ']' ∉ (if o.passed then passMark else failMark).toList := by
    cases o.passed with
    | true => decide
    | false => decide
  rw [read_text, chars_testFinished, afterDuration_append marks]
  exact List.prefix_append _ _

/-! ## The summary of a run -/

def summaryMark : String := "     Summary "

def banner : String := "All Tests Passed"

def failedHeading : String := "List of failed tests:"

/-- How the counts of a run are worded. -/
def counts (total passed failed : Nat) : List Char :=
  (toString total ++ " tests run: " ++ toString passed ++ " passed, " ++ toString failed ++
    " failed").toList

/-- How a directory is shown. -/
def shownDir (dir : String) : List Char := if dir = "" then ['.'] else dir.toList

/-- The wording of the counts in a summary. -/
def countsOf (closing : Bytes) : List Char := afterDuration ((linesOf closing).getD 1 [])

/-- The bullets below the heading of the failed tests in a summary. -/
def failedBullets (closing : Bytes) : List (List Char) :=
  bulletsOf (((linesOf closing).dropWhile (· ≠ failedHeading.toList)).drop 2)

def ruleLine : String := "------------"

theorem chars_failedDirs (dirs : List String) :
    Styled.chars (dirs.flatMap (failedDir .plain)) =
      (dirs.map fun dir => bulletMark.toList ++ shownDir dir).flatMap (· ++ "\n".toList) := by
  rw [Styled.chars_eq_flatMap, List.flatMap_assoc, List.flatMap_map]
  refine List.flatMap_congr ?_
  intro dir _
  have shown : (if dir = "" then "." else dir).toList = shownDir dir := by
    unfold shownDir
    split
    · decide
    · rfl
  simp only [failedDir, bulletMark, Span.plain, shown, List.flatMap_cons, List.flatMap_nil,
    List.append_assoc, List.append_nil]

/-- The lines of a summary after the counts. -/
def endingLines (s : Summary) : List (List Char) :=
  if s.isSuccess then [[], banner.toList]
  else
    [] :: failedHeading.toList :: [] ::
      s.failedDirs.map fun dir => bulletMark.toList ++ shownDir dir

theorem chars_ending (s : Summary) :
    Styled.chars (if s.isSuccess then [.plain "\n", .plain "All Tests Passed", .plain "\n"]
      else [.plain "\n", .plain "List of failed tests:", .plain "\n\n"] ++
        s.failedDirs.flatMap (failedDir .plain)) =
      (endingLines s).flatMap (· ++ "\n".toList) := by
  have blank : "\n\n" = "\n" ++ "\n" := by decide +kernel
  rw [endingLines, blank]
  cases s.isSuccess with
  | true =>
    rw [if_pos rfl, if_pos rfl, chars_cons, chars_cons, chars_cons, chars_nil, List.flatMap_cons,
      List.flatMap_cons, List.flatMap_nil]
    simp only [banner, Span.plain, List.append_nil, List.nil_append]
  | false =>
    rw [if_neg Bool.false_ne_true, if_neg Bool.false_ne_true, chars_append, chars_failedDirs,
      chars_cons, chars_cons, chars_cons, chars_nil, List.flatMap_cons, List.flatMap_cons,
      List.flatMap_cons]
    simp only [failedHeading, Span.plain, String.toList_append, List.append_nil, List.nil_append,
      List.append_assoc]

theorem chars_runFinished (s : Summary) (elapsed : Nat) :
    (event .plain (.runFinished s elapsed)).chars =
      (ruleLine.toList :: (summaryMark.toList ++ ((Duration.text elapsed).toList ++
        counts s.total s.passed s.failed)) :: endingLines s).flatMap (· ++ "\n".toList) := by
  have rule : "------------\n" = ruleLine ++ "\n" := by decide +kernel
  have mark : summaryMark = Text.alignRight 12 "Summary" ++ " " := by decide +kernel
  have passed : " passed, " = " " ++ "passed" ++ ", " := by decide +kernel
  have failed : " failed" = " " ++ "failed" := by decide +kernel
  rw [List.flatMap_cons, List.flatMap_cons, ← chars_ending, counts, mark, passed, failed, event,
    rule]
  simp only [chars_append, chars_cons, chars_nil, Report.head, Report.count, Span.plain,
    Theme.plain, ite_self, String.toList_append, List.append_assoc, List.append_nil]

theorem not_mem_counts (s : Summary) : '\n' ∉ counts s.total s.passed s.failed := by
  simp only [counts, String.toList_append, List.mem_append, not_or]
  exact ⟨⟨⟨⟨⟨not_mem_number _, by decide⟩, not_mem_number _⟩, by decide⟩, not_mem_number _⟩,
    by decide⟩

theorem not_mem_shownDir {dir : String} (absent : '\n' ∉ dir.toList) : '\n' ∉ shownDir dir := by
  unfold shownDir
  split
  · decide
  · exact absent

theorem not_mem_summaryLine (s : Summary) (elapsed : Nat) :
    '\n' ∉ summaryMark.toList ++ ((Duration.text elapsed).toList ++
      counts s.total s.passed s.failed) := by
  obtain ⟨clock, hclock, clocked⟩ := toList_duration elapsed
  have hnone : '\n' ∉ clock := fun h => not_clocked_lineEnd (clocked _ h)
  have hbracket : '\n' ∉ [']', ' '] := by decide
  simp only [hclock, List.mem_append, not_or]
  exact ⟨by decide, ⟨hnone, hbracket⟩, not_mem_counts s⟩

/-- A summary consists of a rule, the counts, and either the banner or the failed directories. -/
theorem linesOf_closing {s : Summary} (dirLines : ∀ dir ∈ s.failedDirs, '\n' ∉ dir.toList)
    (elapsed : Nat) :
    linesOf (text .plain (.runFinished s elapsed)) =
      ruleLine.toList :: (summaryMark.toList ++ ((Duration.text elapsed).toList ++
        counts s.total s.passed s.failed)) :: (endingLines s ++ [[]]) := by
  have ending : ∀ line ∈ endingLines s, '\n' ∉ line := by
    intro line member
    rw [endingLines] at member
    split at member
    · simp only [List.mem_cons, List.not_mem_nil, or_false] at member
      rcases member with rfl | rfl
      · exact List.not_mem_nil
      · decide
    · simp only [List.mem_cons, List.mem_map] at member
      rcases member with rfl | rfl | rfl | ⟨dir, hdir, rfl⟩
      · exact List.not_mem_nil
      · decide
      · exact List.not_mem_nil
      · rw [List.mem_append, not_or]
        exact ⟨by decide, not_mem_shownDir (dirLines dir hdir)⟩
  have absent : ∀ line ∈ ruleLine.toList :: (summaryMark.toList ++
      ((Duration.text elapsed).toList ++ counts s.total s.passed s.failed)) :: endingLines s,
      '\n' ∉ line := by
    intro line member
    rcases List.mem_cons.mp member with rfl | member
    · decide
    · rcases List.mem_cons.mp member with rfl | member
      · exact not_mem_summaryLine s elapsed
      · exact ending line member
  have lines := split_lines absent []
  rw [List.append_nil, ← chars_runFinished] at lines
  rw [linesOf, read_text, lines]
  rfl

section

variable {s : Summary} (dirLines : ∀ dir ∈ s.failedDirs, '\n' ∉ dir.toList) (elapsed : Nat)

include dirLines

theorem countsOf_text : countsOf (text .plain (.runFinished s elapsed)) =
    counts s.total s.passed s.failed := by
  have mark : ']' ∉ summaryMark.toList := by decide
  rw [countsOf, linesOf_closing dirLines]
  exact afterDuration_append mark elapsed _

/-- Of the lines of a summary that are not blank and have no mark at their front there is only one:
the banner, or the heading of the failed tests. -/
theorem mem_closing_iff {line : List Char} (nonempty : line ≠ [])
    (unmarked : ∀ mark ∈ [ruleLine, summaryMark, bulletMark], ¬ mark.toList <+: line) :
    line ∈ linesOf (text .plain (.runFinished s elapsed)) ↔
      line = (if s.isSuccess then banner else failedHeading).toList := by
  have other : ∀ mark ∈ [ruleLine, summaryMark, bulletMark], ∀ rest,
      line ≠ mark.toList ++ rest := by
    rintro mark member rest rfl
    exact unmarked mark member (List.prefix_append _ _)
  have rule : line ≠ ruleLine.toList := by
    simpa using other ruleLine (by simp) []
  have summary := other summaryMark (by simp)
  have bullet : line ∉ s.failedDirs.map fun dir => bulletMark.toList ++ shownDir dir := by
    intro member
    obtain ⟨dir, -, hdir⟩ := List.mem_map.mp member
    exact other bulletMark (by simp) _ hdir.symm
  rw [linesOf_closing dirLines, endingLines, List.mem_cons, List.mem_cons, List.mem_append]
  cases s.isSuccess with
  | true => simp [rule, summary, nonempty]
  | false => simp [rule, summary, nonempty, bullet]

theorem banner_mem_text_iff : banner.toList ∈ linesOf (text .plain (.runFinished s elapsed)) ↔
    s.isSuccess = true := by
  rw [mem_closing_iff dirLines elapsed (by decide) (by decide)]
  cases s.isSuccess with
  | true => exact ⟨fun _ => rfl, fun _ => rfl⟩
  | false => decide

theorem failedHeading_mem_text_iff :
    failedHeading.toList ∈ linesOf (text .plain (.runFinished s elapsed)) ↔
      s.isSuccess = false := by
  rw [mem_closing_iff dirLines elapsed (by decide) (by decide)]
  cases s.isSuccess with
  | true => decide
  | false => exact ⟨fun _ => rfl, fun _ => rfl⟩

theorem failedBullets_text (failed : s.isSuccess = false) :
    failedBullets (text .plain (.runFinished s elapsed)) = s.failedDirs.map shownDir := by
  have rule : ruleLine.toList ≠ failedHeading.toList := by decide
  have blank : [] ≠ failedHeading.toList := by decide
  have summary : ∀ rest, summaryMark.toList ++ rest ≠ failedHeading.toList := by
    intro rest h
    have front : summaryMark.toList <+: failedHeading.toList := h ▸ List.prefix_append _ rest
    exact absurd front (by decide)
  have below : ((linesOf (text .plain (.runFinished s elapsed))).dropWhile
      (· ≠ failedHeading.toList)).drop 2 =
        (s.failedDirs.map shownDir).map (bulletMark.toList ++ ·) ++ [[]] := by
    rw [linesOf_closing dirLines, endingLines, if_neg (by simp [failed])]
    simp [rule, blank, summary, Function.comp_def]
  rw [failedBullets, below, bulletsOf_append _ _ (by decide)]

end

end Report

end BenchHarness
