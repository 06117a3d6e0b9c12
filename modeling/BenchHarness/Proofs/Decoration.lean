import BenchHarness.Proofs.ReportLines

/-!
# Decoration

Colour stands around the texts of a report and changes nothing else. `Sgr.remove` takes every SGR sequence
out of some bytes. What is left of a part does not depend on what stands after it (`Sgr.Shows`): of a
sequence nothing, and of a text without an escape all of it, painted or not (`Sgr.shows_paint`). As the
spans of a report have the same texts in every theme (`Report.undecorated_event`), and their fixed parts,
numbers and durations have no escape (`Report.clean_event`), a report in colour is left as the one
without. JSON has no styles, and no escapes either, whatever it quotes (`Manifest.clean_text`).
-/

namespace BenchHarness

/-! ## Taking sequences out -/

namespace Sgr

/-- The byte that every escape sequence begins with. -/
def escape : UInt8 := 0x1b

/-- Digits, separators and the other bytes that may stand between the bracket of a sequence and the letter
that ends it. -/
def isParameter (b : UInt8) : Bool := 0x30 ≤ b.toNat && b.toNat ≤ 0x3f

/-- How many bytes there are up to the letter that ends an SGR sequence, if nothing but parameters stands
in front of it. -/
def parametersLength? : Bytes → Option Nat
  | [] => none
  | b :: rest =>
    if b = 0x6d then some 1
    else if isParameter b then (parametersLength? rest).map (· + 1)
    else none

/-- How many bytes after an escape belong to the SGR sequence that it begins, if it does. -/
def tailLength? : Bytes → Option Nat
  | [] => none
  | b :: rest => if b = 0x5b then (parametersLength? rest).map (· + 1) else none

/-- Passes over some bytes, and takes the SGR sequences out of the others. -/
def removeAfter : Nat → Bytes → Bytes
  | _, [] => []
  | passed + 1, _ :: rest => removeAfter passed rest
  | 0, b :: rest =>
    match if b = escape then tailLength? rest else none with
    | some length => removeAfter length rest
    | none => b :: removeAfter 0 rest

/-- Takes the SGR sequences out of some bytes. -/
def remove (bytes : Bytes) : Bytes := removeAfter 0 bytes

theorem removeAfter_append (front rest : Bytes) :
    removeAfter front.length (front ++ rest) = remove rest := by
  induction front with
  | nil => rfl
  | cons b front ih => exact ih

theorem remove_cons_of_ne {b : UInt8} (other : b ≠ escape) (rest : Bytes) :
    remove (b :: rest) = b :: remove rest := by
  rw [remove, removeAfter, if_neg other]
  rfl

theorem parametersLength?_append {parameters : Bytes}
    (all : ∀ b ∈ parameters, isParameter b = true) (rest : Bytes) :
    parametersLength? (parameters ++ 0x6d :: rest) = some (parameters.length + 1) := by
  induction parameters with
  | nil => rfl
  | cons b parameters ih =>
    have hb := all b List.mem_cons_self
    have hne : b ≠ 0x6d := by
      rintro rfl
      exact absurd hb (by decide)
    rw [List.cons_append, parametersLength?, if_neg hne, if_pos hb,
      ih fun b' h => all b' (List.mem_cons_of_mem b h)]
    rfl

theorem remove_sequence {parameters : Bytes} (all : ∀ b ∈ parameters, isParameter b = true)
    (rest : Bytes) : remove (escape :: 0x5b :: (parameters ++ 0x6d :: rest)) = remove rest := by
  have hlength : tailLength? (0x5b :: (parameters ++ 0x6d :: rest)) =
      some (0x5b :: (parameters ++ [0x6d])).length := by
    rw [tailLength?, if_pos rfl, parametersLength?_append all]
    simp
  have hfront : 0x5b :: (parameters ++ 0x6d :: rest) = 0x5b :: (parameters ++ [0x6d]) ++ rest := by
    simp
  rw [remove, removeAfter, if_pos rfl, hlength, hfront]
  exact removeAfter_append _ rest

/-! ## What is left -/

/-- Whatever comes after some bytes, this is what is left of them. -/
def Shows (bytes shown : Bytes) : Prop := ∀ rest, remove (bytes ++ rest) = shown ++ remove rest

theorem Shows.remove_eq {bytes shown : Bytes} (leaves : Shows bytes shown) : remove bytes = shown := by
  have h := leaves []
  rwa [List.append_nil, show remove [] = [] from rfl, List.append_nil] at h

theorem Shows.append {bytes shown bytes' shown' : Bytes} (first : Shows bytes shown)
    (others : Shows bytes' shown') : Shows (bytes ++ bytes') (shown ++ shown') := by
  intro rest
  rw [List.append_assoc, first, others, List.append_assoc]

theorem shows_of_not_mem {bytes : Bytes} (absent : escape ∉ bytes) : Shows bytes bytes := by
  intro rest
  induction bytes with
  | nil => rfl
  | cons b bytes ih =>
    rw [List.mem_cons, not_or] at absent
    rw [List.cons_append, remove_cons_of_ne (Ne.symm absent.1), ih absent.2, List.cons_append]

/-- A text without the character that escape sequences begin with. -/
def Clean (text : String) : Prop := '\x1b' ∉ text.toList

instance (text : String) : Decidable (Clean text) :=
  inferInstanceAs (Decidable ('\x1b' ∉ text.toList))

theorem Clean.append {text text' : String} (first : Clean text) (others : Clean text') :
    Clean (text ++ text') := by
  rw [Clean, String.toList_append, List.mem_append]
  exact not_or.mpr ⟨first, others⟩

theorem Clean.shows {text : String} (clean : Clean text) :
    Shows (Utf8.encode text) (Utf8.encode text) :=
  shows_of_not_mem fun member => clean ((Utf8.mem_encode_iff (by decide) text).mp member)

/-! ## Styles -/

/-- A character of some joined texts comes from one of them or from what stands between them. -/
theorem mem_intercalate {between : String} {texts : List String} {c : Char}
    (member : c ∈ (between.intercalate texts).toList) :
    c ∈ between.toList ∨ ∃ text ∈ texts, c ∈ text.toList := by
  induction texts with
  | nil => exact absurd member (by simp)
  | cons text texts ih =>
    cases texts with
    | nil => exact .inr ⟨text, List.mem_cons_self, by simpa using member⟩
    | cons next texts =>
      rw [String.intercalate_cons_cons, String.toList_append, String.toList_append,
        List.mem_append, List.mem_append] at member
      rcases member with (h | h) | h
      · exact .inr ⟨text, List.mem_cons_self, h⟩
      · exact .inl h
      · rcases ih h with h | ⟨text', member', h⟩
        · exact .inl h
        · exact .inr ⟨text', List.mem_cons_of_mem text member', h⟩

/-- The parameters of a sequence are written with digits and separators. -/
theorem isParameter_of_mem_encode {parameters : List Nat} {b : UInt8}
    (member : b ∈ Utf8.encode (";".intercalate (parameters.map toString))) :
    isParameter b = true := by
  obtain ⟨c, hc, hb⟩ := List.mem_flatMap.mp member
  have range : 0x30 ≤ c.val.toNat ∧ c.val.toNat ≤ 0x3f := by
    rcases mem_intercalate hc with separator | ⟨text, htext, digit⟩
    · obtain rfl : c = ';' := List.mem_singleton.mp separator
      decide
    · obtain ⟨n, -, rfl⟩ := List.mem_map.mp htext
      have hdigit := Report.isDigit_of_mem_number n digit
      simp only [Char.isDigit, Bool.and_eq_true, decide_eq_true_eq] at hdigit
      obtain ⟨low, high⟩ := hdigit
      have low' : 48 ≤ c.val.toNat := low
      have high' : c.val.toNat ≤ 57 := high
      omega
  have ascii : c.val.toNat < 0x80 := by omega
  rw [Utf8.utf8EncodeChar_of_ascii ascii, List.mem_singleton] at hb
  rw [hb, isParameter, Utf8.asciiByte_toNat ascii]
  simpa using range

theorem shows_opening (sequences : List (List Nat)) :
    Shows (Utf8.encode (Style.opening ⟨sequences⟩)) [] := by
  induction sequences with
  | nil => exact shows_of_not_mem List.not_mem_nil
  | cons parameters sequences ih =>
    intro rest
    have hsplit : Utf8.encode (Style.opening ⟨parameters :: sequences⟩) ++ rest =
        escape :: 0x5b :: (Utf8.encode (";".intercalate (parameters.map toString)) ++
          0x6d :: (Utf8.encode (Style.opening ⟨sequences⟩) ++ rest)) := by
      have start : Utf8.encode "\x1b[" = [escape, 0x5b] := by decide
      have letter : Utf8.encode "m" = [0x6d] := by decide
      simp only [Style.opening, List.map_cons, String.join_cons, Utf8.encode_append, start, letter]
      simp
    rw [hsplit, remove_sequence fun b => isParameter_of_mem_encode, ih]

theorem shows_closing : Shows (Utf8.encode Style.closing) [] := by
  have reset : Style.closing = Style.opening ⟨[[0]]⟩ := by decide +kernel
  rw [reset]
  exact shows_opening [[0]]

/-- Of a painted text the text is left. -/
theorem shows_paint (style : Style) {text : String} (clean : Clean text) :
    Shows (Utf8.encode (style.paint text)) (Utf8.encode text) := by
  unfold Style.paint
  split
  · exact clean.shows
  · rw [Utf8.encode_append, Utf8.encode_append]
    simpa using ((shows_opening style.sequences).append clean.shows).append shows_closing

end Sgr

/-! ## Texts of spans -/

namespace Styled

/-- Every span has a text without escapes. -/
def Clean (t : Styled) : Prop := ∀ span ∈ t, Sgr.Clean span.text

/-- The spans with no style. -/
def undecorated (t : Styled) : Styled := t.map fun span => .plain span.text

theorem undecorated_append (t t' : Styled) :
    Styled.undecorated (t ++ t') = t.undecorated ++ t'.undecorated := List.map_append

theorem undecorated_flatMap {α : Type} (f : α → Styled) (l : List α) :
    Styled.undecorated (l.flatMap f) = l.flatMap fun a => (f a).undecorated := List.map_flatMap

theorem Clean.nil : Styled.Clean [] := fun _ member => absurd member List.not_mem_nil

theorem Clean.cons {span : Span} {t : Styled} (first : Sgr.Clean span.text) (others : t.Clean) :
    Styled.Clean (span :: t) := List.forall_mem_cons.mpr ⟨first, others⟩

theorem Clean.append {t t' : Styled} (first : t.Clean) (others : t'.Clean) :
    Styled.Clean (t ++ t') := List.forall_mem_append.mpr ⟨first, others⟩

theorem Clean.flatMap {α : Type} {f : α → Styled} {l : List α} (clean : ∀ a ∈ l, (f a).Clean) :
    Styled.Clean (l.flatMap f) := by
  intro span member
  obtain ⟨a, ha, h⟩ := List.mem_flatMap.mp member
  exact clean a ha span h

/-- Without its sequences a text reads as if it had no styles. -/
theorem Clean.shows {t : Styled} (clean : t.Clean) :
    Sgr.Shows (Utf8.encode t.render) (Utf8.encode t.undecorated.render) := by
  rw [← Channel.flatten_encode_spans, ← Channel.flatten_encode_spans, undecorated, List.map_map]
  induction t with
  | nil => exact Sgr.shows_of_not_mem List.not_mem_nil
  | cons span t ih =>
    have hspan := Sgr.shows_paint span.style (clean span List.mem_cons_self)
    exact hspan.append (ih fun s member => clean s (List.mem_cons_of_mem span member))

end Styled

/-! ## Events -/

/-- The texts that an action is given with. -/
def Action.texts : Action → List String
  | .runFiltered substring => [substring]
  | .showHelp | .listOnly | .runAll => []

/-- The texts of an event; the rest of its report is wording, numbers and durations. -/
def Event.texts : Event → List String
  | .runStarted s => s.root :: (s.action.texts ++ s.entries.map (·.path))
  | .testStarted entry workingDir => [entry.path, workingDir]
  | .testFinished o =>
    o.entry.path :: (o.failure.map fun failure => failure.message :: failure.causes).getD []
  | .runFinished s _ => s.failedDirs

namespace Report

open Sgr (Clean)

/-! ### The same texts in every theme -/

variable {theme : Theme}

theorem undecorated_entryLines (entries : List Entry) :
    (entryLines theme entries).undecorated = entryLines .plain entries :=
  Styled.undecorated_flatMap _ entries

theorem undecorated_selectionHeader (s : Selection) :
    (selectionHeader theme s).undecorated = selectionHeader .plain s := by
  unfold selectionHeader
  cases s.action with
  | runFiltered substring =>
    rw [Styled.undecorated_append, Styled.undecorated_append, undecorated_entryLines]
    rfl
  | runAll =>
    rw [Styled.undecorated_append, Styled.undecorated_append, undecorated_entryLines]
    rfl
  | showHelp => rfl
  | listOnly => rfl

theorem undecorated_failureLines (message : String) (causes : List String) :
    (failureLines theme message causes).undecorated = failureLines .plain message causes := by
  rw [failureLines, Styled.undecorated_append, Styled.undecorated_flatMap]
  rfl

theorem undecorated_verdict (o : Outcome) : (verdict theme o).undecorated = verdict .plain o := by
  unfold verdict
  cases o.failure with
  | some failure => exact undecorated_failureLines _ _
  | none =>
    rw [Styled.undecorated_append, markerCount, markerCount, Theme.plain, ite_self]
    rfl

theorem undecorated_finishedHead (o : Outcome) :
    (finishedHead theme o).undecorated = finishedHead .plain o := by
  unfold finishedHead
  cases o.passed with
  | true => rfl
  | false => rfl

/-- Themes differ in styles only. -/
theorem undecorated_event (e : Event) : (event theme e).undecorated = event .plain e := by
  cases e with
  | runStarted s =>
    rw [event, Styled.undecorated_append, Styled.undecorated_append, undecorated_selectionHeader]
    rfl
  | testStarted entry workingDir => rfl
  | testFinished o =>
    rw [event, Styled.undecorated_append, undecorated_finishedHead, undecorated_verdict]
    rfl
  | runFinished s elapsed =>
    have dirs : Styled.undecorated (s.failedDirs.flatMap (failedDir theme)) =
        s.failedDirs.flatMap (failedDir .plain) := Styled.undecorated_flatMap _ _
    rw [event, event]
    cases s.isSuccess with
    | true => rfl
    | false =>
      simp only [Bool.false_eq_true, if_false, Styled.undecorated_append, dirs]
      rfl

/-! ### No escapes but those of the styles -/

theorem clean_number (n : Nat) : Clean (toString n) :=
  fun member => absurd (isDigit_of_mem_number n member) (by decide)

theorem clean_duration (n : Nat) : Clean (Duration.text n) := by
  obtain ⟨clock, hclock, clocked⟩ := toList_duration n
  have hescape : ¬ Clocked '\x1b' := by
    rintro (h | h)
    · exact absurd h (by decide)
    · exact absurd h (by decide)
  rw [Clean, hclock, List.mem_append]
  rintro (h | h)
  · exact hescape (clocked _ h)
  · exact absurd h (by decide)

theorem clean_entryLines {entries : List Entry} (paths : ∀ e ∈ entries, Clean e.path) :
    (entryLines theme entries).Clean :=
  .flatMap fun e member => .cons (by decide) (.cons (paths e member) (.cons (by decide) .nil))

theorem clean_head (style : Style) {word : String} (clean : Clean (Text.alignRight 12 word)) :
    (head style word).Clean := .cons clean (.cons (by decide) .nil)

theorem clean_selectionHeader {s : Selection} (action : ∀ text ∈ s.action.texts, Clean text)
    (paths : ∀ e ∈ s.entries, Clean e.path) : (selectionHeader theme s).Clean := by
  have lineEnd : Styled.Clean [.plain "\n"] := .cons (by decide) .nil
  unfold selectionHeader
  cases h : s.action with
  | runFiltered substring =>
    rw [h] at action
    have given := action substring List.mem_cons_self
    refine .append (.append ?_ (clean_entryLines paths)) lineEnd
    exact .cons (by decide) (.cons (clean_number _) (.cons (by decide) (.cons given
      (.cons (by decide) .nil))))
  | runAll =>
    have title : Clean "Running all tests:" := by decide
    refine .append (.append ?_ (clean_entryLines paths)) lineEnd
    exact .cons (by decide) (.cons title (.cons (by decide) .nil))
  | showHelp => exact .nil
  | listOnly => exact .nil

theorem clean_failureLines {message : String} {causes : List String} (first : Clean message)
    (others : ∀ cause ∈ causes, Clean cause) : (failureLines theme message causes).Clean := by
  refine .append (.cons first (.cons (by decide) .nil)) (.flatMap fun cause member => ?_)
  have mark : Clean (Text.alignRight 12 "caused by:") := by decide +kernel
  have line : Clean (" " ++ cause ++ "\n") :=
    (Clean.append (by decide) (others cause member)).append (by decide)
  exact .cons mark (.cons line .nil)

theorem clean_finishedHead {o : Outcome} (path : Clean o.entry.path) :
    (finishedHead theme o).Clean := by
  refine .append ?_ (.cons (clean_duration _) (.cons path (.cons (by decide) .nil)))
  cases o.passed with
  | true => exact clean_head _ (by decide +kernel)
  | false => exact clean_head _ (by decide +kernel)

theorem clean_verdict {o : Outcome} (texts : ∀ text ∈ (Event.testFinished o).texts, Clean text) :
    (verdict theme o).Clean := by
  unfold verdict
  cases h : o.failure with
  | some failure =>
    have given : ∀ text ∈ failure.message :: failure.causes, Clean text := by
      intro text member
      refine texts text (List.mem_cons_of_mem _ ?_)
      rw [h]
      exact member
    exact clean_failureLines (given _ List.mem_cons_self)
      fun cause member => given cause (List.mem_cons_of_mem _ member)
  | none =>
    have times : Clean (if o.markers = 1 then " time" else " times") := by
      split
      · decide
      · decide
    refine .append (.cons (by decide) (.cons (clean_number _) (.cons times .nil))) (.cons ?_ .nil)
    cases o.exitCode with
    | some code =>
      exact (Clean.append (by decide) (clean_number code)).append (by decide)
    | none => show Clean ", no exit code\n"; decide

theorem clean_failedDir {dir : String} (clean : Clean dir) : (failedDir theme dir).Clean := by
  have shown : Clean (if dir = "" then "." else dir) := by
    split
    · decide
    · exact clean
  exact .cons (by decide) (.cons shown (.cons (by decide) .nil))

theorem clean_summaryLine (s : Summary) (elapsed : Nat) : Styled.Clean
    [.plain (Duration.text elapsed), count theme.count s.total, .plain " tests run: ",
      count theme.count s.passed, .plain " ", ⟨theme.pass, "passed"⟩, .plain ", ",
      count theme.count s.failed, .plain " ", ⟨theme.fail, "failed"⟩, .plain "\n"] := by
  have passed : Clean "passed" := by decide
  have failed : Clean "failed" := by decide
  exact .cons (clean_duration _) (.cons (clean_number _) (.cons (by decide)
    (.cons (clean_number _) (.cons (by decide) (.cons passed (.cons (by decide)
      (.cons (clean_number _) (.cons (by decide) (.cons failed (.cons (by decide) .nil))))))))))

/-- The only escapes in a report that is given texts without any are those of its styles. -/
theorem clean_event {e : Event} (texts : ∀ text ∈ e.texts, Clean text) : (event theme e).Clean := by
  cases e with
  | runStarted s =>
    obtain ⟨root, others⟩ := List.forall_mem_cons.mp texts
    obtain ⟨action, paths⟩ := List.forall_mem_append.mp others
    have tests : Clean (" tests under " ++ s.root ++ "\n") :=
      (Clean.append (by decide) root).append (by decide)
    refine .append (.append (clean_selectionHeader action ?_) (clean_head _ (by decide +kernel))) ?_
    · exact fun entry member => paths _ (List.mem_map_of_mem member)
    · exact .cons (clean_number _) (.cons tests .nil)
  | testStarted entry workingDir =>
    obtain ⟨path, others⟩ := List.forall_mem_cons.mp texts
    have dir : Clean workingDir := others workingDir List.mem_cons_self
    have start : Clean (Text.alignRight 12 "START") := by decide +kernel
    have place : Clean (" (cd to " ++ workingDir ++ ")\n") :=
      (Clean.append (by decide) dir).append (by decide)
    exact .cons start (.cons (by decide +kernel) (.cons path (.cons place .nil)))
  | testFinished o =>
    exact .append (clean_finishedHead (texts _ List.mem_cons_self)) (clean_verdict texts)
  | runFinished s elapsed =>
    have banner : Clean "All Tests Passed" := by decide
    have heading : Clean "List of failed tests:" := by decide
    refine .append (.append (.append (.cons (by decide) .nil) ?_) (clean_summaryLine s elapsed)) ?_
    · exact clean_head _ (by decide +kernel)
    · split
      · exact .cons (by decide) (.cons banner (.cons (by decide) .nil))
      · exact .append (.cons (by decide) (.cons heading (.cons (by decide) .nil)))
          (.flatMap fun dir member => clean_failedDir (texts dir member))

end Report

/-! ## Lists -/

namespace Json

open Sgr (Clean)

theorem not_mem_escape (c : Char) : '\x1b' ∉ escape c := by
  have letters : ∀ n < 16, '\x1b' ≠ hexDigit n := by decide
  have pair : ∀ letter, letter ≠ '\x1b' → '\x1b' ∉ ['\\', letter] := by
    intro letter other
    simp [other.symm]
  unfold escape
  split
  · exact pair '\x22' (by decide)
  split
  · exact pair '\\' (by decide)
  split
  · exact pair 'b' (by decide)
  split
  · exact pair 't' (by decide)
  split
  · exact pair 'n' (by decide)
  split
  · exact pair 'f' (by decide)
  split
  · exact pair 'r' (by decide)
  split
  · next control =>
    simp [letters (c.toNat / 16) (by omega), letters (c.toNat % 16) (by omega)]
  · next printed =>
    intro member
    rw [← List.mem_singleton.mp member] at printed
    exact printed (by decide)

/-- A quoted text has no escapes, whatever it quotes. -/
theorem clean_quote (text : String) : Clean (quote text) := by
  rw [Clean, quote, String.toList_ofList, List.mem_cons, List.mem_append, List.mem_flatMap]
  rintro (h | ⟨c, -, h⟩ | h)
  · exact absurd h (by decide)
  · exact not_mem_escape c h
  · exact absurd h (by decide)

/-- A layout puts no escapes between the parts of a text. -/
structure Layout.Clean (l : Layout) : Prop where
  line : ∀ depth, Sgr.Clean (l.line depth)
  colon : Sgr.Clean l.colon

theorem Layout.clean_compact : Layout.compact.Clean :=
  ⟨fun _ => show Sgr.Clean "" by decide, by decide⟩

theorem Layout.clean_indented : Layout.indented.Clean := by
  refine ⟨fun depth => Sgr.Clean.append (by decide) ?_, by decide⟩
  rw [Sgr.Clean, Report.toList_pushn]
  exact fun member => absurd (List.eq_of_mem_replicate member) (by decide)

variable {l : Layout} (clean : l.Clean)

include clean

theorem Layout.Clean.items (depth : Nat) {texts : List String} (all : ∀ text ∈ texts, Sgr.Clean text) :
    Sgr.Clean (l.items depth texts) := by
  intro member
  rcases Sgr.mem_intercalate member with h | ⟨line, hline, h⟩
  · exact absurd h (by decide)
  · obtain ⟨text, htext, rfl⟩ := List.mem_map.mp hline
    exact (clean.line depth).append (all text htext) h

theorem Layout.Clean.array (depth : Nat) {elements : List String}
    (all : ∀ text ∈ elements, Sgr.Clean text) : Sgr.Clean (l.array depth elements) := by
  unfold Layout.array
  split
  · decide
  · exact ((Sgr.Clean.append (by decide) (clean.items _ all)).append (clean.line depth)).append
      (by decide)

theorem Layout.Clean.object (depth : Nat) {members : List (String × String)}
    (all : ∀ m ∈ members, Sgr.Clean m.2) : Sgr.Clean (l.object depth members) := by
  unfold Layout.object
  refine ((Sgr.Clean.append (by decide) (clean.items _ ?_)).append (clean.line depth)).append
    (by decide)
  intro text member
  obtain ⟨m, hm, rfl⟩ := List.mem_map.mp member
  exact ((clean_quote m.1).append clean.colon).append (all m hm)

end Json

/-- Whatever the paths in a manifest, its text has no escapes. -/
theorem Manifest.clean_text {l : Json.Layout} (clean : l.Clean) (m : Manifest) :
    Sgr.Clean (m.text l) := by
  have test : ∀ e, Sgr.Clean (entryText l 2 e) := fun e => clean.object 2
    (List.forall_mem_cons.mpr ⟨Json.clean_quote _, List.forall_mem_singleton.mpr (Json.clean_quote _)⟩)
  have tests : Sgr.Clean (l.array 1 (m.tests.map (entryText l 2))) := by
    refine clean.array 1 ?_
    intro text member
    obtain ⟨e, -, rfl⟩ := List.mem_map.mp member
    exact test e
  exact clean.object 0 (List.forall_mem_cons.mpr ⟨Json.clean_quote _, List.forall_mem_cons.mpr
    ⟨Report.clean_number _, List.forall_mem_singleton.mpr tests⟩⟩)

/-- Without its sequences a list reads as without colour. -/
theorem TestList.shows_text (theme : Theme) {list : TestList}
    (paths : ∀ e ∈ list.entries, Sgr.Clean e.path) (format : ListFormat) :
    Sgr.Shows (Utf8.encode (list.text theme format)) (Utf8.encode (list.text .plain format)) := by
  have lineEnd : Sgr.Clean "\n" := by decide
  cases format with
  | plain =>
    have title : Sgr.Clean "All tests found:" := by decide
    have clean : (Report.testList theme list).Clean :=
      .append (.cons (by decide) (.cons title (.cons (by decide) .nil)))
        (Report.clean_entryLines paths)
    have same : (Report.testList theme list).undecorated = Report.testList .plain list := by
      rw [Report.testList, Styled.undecorated_append, Report.undecorated_entryLines]
      rfl
    have leaves := clean.shows
    rwa [same] at leaves
  | json => exact ((list.manifest.clean_text Json.Layout.clean_compact).append lineEnd).shows
  | jsonPretty => exact ((list.manifest.clean_text Json.Layout.clean_indented).append lineEnd).shows

/-! ## Colour -/

/-- Whatever the theme: without its SGR sequences what is written is, byte for byte, what is written
without colour. That goes for every event, for a finished test with any failure and any chain of causes,
and for every list; a list in JSON has no sequences in the first place. -/
theorem Report.colour_only_decorates (theme : Theme) :
    (∀ e : Event, (∀ text ∈ e.texts, '\x1b' ∉ text.toList) →
      Sgr.remove (writeEvent Sink.put theme e .buffer).2.contents =
        (writeEvent Sink.put .plain e .buffer).2.contents) ∧
    (∀ (o : Outcome) (message : String) (causes : List String),
      (∀ text ∈ o.entry.path :: message :: causes, '\x1b' ∉ text.toList) →
      let lines := fun theme => finishedHead theme o ++ failureLines theme message causes
      Sgr.remove (write Sink.put (lines theme) .buffer).2.contents =
        (write Sink.put (lines .plain) .buffer).2.contents) ∧
    (∀ (list : TestList) (format : ListFormat), (∀ e ∈ list.entries, '\x1b' ∉ e.path.toList) →
      Sgr.remove (list.write Sink.put theme format .buffer).2.contents =
        (list.write Sink.put .plain format .buffer).2.contents) ∧
    (∀ (list : TestList) (format : ListFormat), format ≠ .plain →
      list.write Sink.put theme format = list.write Sink.put .plain format) := by
  have written := fun text => (Channel.Emits.write Sink.carries_put text).buffer.2
  refine ⟨?_, ?_, ?_, ?_⟩
  · intro e texts
    have same : (event theme e).undecorated = event .plain e := undecorated_event e
    rw [writeEvent, writeEvent, written, written, ← same]
    exact (clean_event texts).shows.remove_eq
  · intro o message causes texts lines
    obtain ⟨path, others⟩ := List.forall_mem_cons.mp texts
    obtain ⟨first, others⟩ := List.forall_mem_cons.mp others
    have same : (lines theme).undecorated = lines .plain := by
      rw [Styled.undecorated_append, undecorated_finishedHead, undecorated_failureLines]
    have clean : (lines theme).Clean :=
      .append (clean_finishedHead path) (clean_failureLines first others)
    rw [written, written, ← same]
    exact clean.shows.remove_eq
  · intro list format paths
    have written := fun theme => (Channel.Emits.list Sink.carries_put list theme format).buffer.2
    rw [written, written]
    exact (list.shows_text theme paths format).remove_eq
  · intro list format json
    cases format with
    | plain => exact absurd rfl json
    | json => rfl
    | jsonPretty => rfl

/-- In colour: a test that could not be launched, for a reason that has one of its own, a test whose output
could not be read, and a list. -/
theorem Report.colour_only_decorates_of_failure :
    let o : Outcome := ⟨⟨"a/go"⟩, 0, [], [], none, 1500000000,
      some (.spawn "sh a/go" (.wrapped "no shell" ["disk gone"]))⟩
    let lines := finishedHead .coloured o ++
      failureLines .coloured "error reading standard output" ["Broken pipe", "cable cut"]
    let list : TestList := ⟨"r", [⟨"é/go"⟩]⟩
    Sgr.remove (writeEvent Sink.put .coloured (.testFinished o) .buffer).2.contents =
        Utf8.encode ("        FAIL [   1.500s] a/go: failed to spawn \x60sh a/go\x60\n" ++
          "  caused by: no shell\n  caused by: disk gone\n") ∧
      Sgr.remove (write Sink.put lines .buffer).2.contents =
        Utf8.encode ("        FAIL [   1.500s] a/go: error reading standard output\n" ++
          "  caused by: Broken pipe\n  caused by: cable cut\n") ∧
      Sgr.remove (list.write Sink.put .coloured .plain .buffer).2.contents =
        Utf8.encode "\nAll tests found:\n\n  --> é/go\n" ∧
      list.write Sink.put .coloured .json = list.write Sink.put .plain .json := by
  intro o lines list
  obtain ⟨events, failures, lists, json⟩ := colour_only_decorates .coloured
  refine ⟨(events (.testFinished o) ?_).trans ?_, (failures o _ _ ?_).trans ?_,
    (lists list .plain ?_).trans ?_, json list .json ListFormat.noConfusion⟩
  · decide +kernel
  · decide +kernel
  · decide +kernel
  · decide +kernel
  · decide +kernel
  · decide +kernel

end BenchHarness
