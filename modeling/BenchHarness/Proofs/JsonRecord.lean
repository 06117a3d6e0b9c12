import BenchHarness.Proofs.JsonGrammar
import BenchHarness.Proofs.JsonScan

/-!
# Values, arrays and records in JSON

A reader and a text belong together if the reader takes the text for the value it was written for,
whatever blanks stand before it and whatever comes after it (`Json.Reads`). This is kept by arrays
(`Json.Reads.array`) and by records (`Json.Reads.object`), in every layout that puts nothing but blanks
between the parts.
-/

namespace BenchHarness.Json

/-- Nothing but blanks. -/
def Blanks (s : Bytes) : Prop := ∀ b ∈ s, isBlank b = true

/-- A reader takes a written value, with any blanks before it, and stops where it ends. -/
def Reads {α : Type} (value : Reader α) (text : String) (x : α) : Prop :=
  ∀ blanks rest, Blanks blanks → Ends rest →
    value (blanks ++ (Utf8.encode text ++ rest)) = .ok (x, rest)

theorem skipBlank_append {blanks : Bytes} (blank : Blanks blanks) {b : UInt8}
    (solid : isBlank b = false) (rest : Bytes) : skipBlank (blanks ++ b :: rest) = b :: rest := by
  rw [skipBlank, List.dropWhile_append_of_pos blank, List.dropWhile_cons_of_neg (by simp [solid])]

theorem ends_append {blanks : Bytes} (blank : Blanks blanks) {rest : Bytes} (ends : Ends rest) :
    Ends (blanks ++ rest) := by
  cases blanks with
  | nil => exact ends
  | cons b blanks =>
    intro c hc
    obtain rfl : b = c := Option.some.inj hc
    exact Or.inr (Or.inr (Or.inr (blank b List.mem_cons_self)))

/-- What is made of a value is read where the value is. -/
theorem Reads.map {α β : Type} {value : Reader α} {text : String} {x : α}
    (reads : Reads value text x) (f : α → β) :
    Reads (fun s => do
      let (x, s) ← value s
      pure (f x, s)) text (f x) := by
  intro blanks rest blank ends
  simp only [reads blanks rest blank ends, bind, Except.bind, pure, Except.pure]

/-! ## Simple values -/

theorem reads_quote (wanted s : String) : Reads (readText wanted) (quote s) s := by
  intro blanks rest blank _
  have hskip : skipBlank (blanks ++ (Utf8.encode (quote s) ++ rest)) =
      0x22 :: (body s.toList ++ 0x22 :: rest) := by
    rw [encode_quote, List.cons_append, skipBlank_append blank (by decide), List.append_assoc]
    rfl
  simp only [readText, hskip, if_true, readString_body]

theorem isBlank_of_isDigit {b : UInt8} (digit : isDigit b = true) : isBlank b = false := by
  rw [Bool.eq_false_iff]
  intro blank
  simp only [isBlank, Bool.or_eq_true, decide_eq_true_eq] at blank
  rcases blank with ((rfl | rfl) | rfl) | rfl <;> exact absurd digit (by decide)

theorem reads_toString (wanted : String) (n : UInt64) :
    Reads (readCount wanted) (toString n.toNat) n := by
  intro blanks rest blank ends
  obtain ⟨first, more, htext, decimal⟩ := exists_decimal n.toNat
  have hskip : skipBlank (blanks ++ (Utf8.encode (toString n.toNat) ++ rest)) =
      first :: (more ++ rest) := by
    rw [htext, List.cons_append, skipBlank_append blank (isBlank_of_isDigit decimal.digit)]
  have hsign : first ≠ 0x2d := by
    rintro rfl
    exact absurd decimal.digit (by decide)
  have hscan := scanNumber_digits decimal (Nat.le_sub_one_of_lt n.toNat_lt) ends
  simp only [readCount, hskip, if_neg hsign, decimal.digit, if_true, hscan]
  simp only [bind, Except.bind, pure, Except.pure, UInt64.ofNat_toNat]

/-! ## Layouts -/

/-- A layout puts nothing but blanks between the parts of a text. -/
structure Layout.Neutral (l : Layout) : Prop where
  line : ∀ depth, Blanks (Utf8.encode (l.line depth))
  colon : ∃ blanks, Utf8.encode l.colon = 0x3a :: blanks ∧ Blanks blanks

theorem Layout.neutral_compact : Layout.compact.Neutral := by
  constructor
  · intro depth b hb
    rw [show Layout.compact.line depth = "" from rfl, Utf8.encode_empty] at hb
    exact absurd hb List.not_mem_nil
  · exact ⟨[], by decide, fun b hb => absurd hb List.not_mem_nil⟩

theorem Layout.neutral_indented : Layout.indented.Neutral := by
  have hspaces : ∀ n, Blanks (Utf8.encode ("".pushn ' ' n)) := by
    intro n
    induction n with
    | zero =>
      intro b hb
      rw [show "".pushn ' ' 0 = "" from rfl, Utf8.encode_empty] at hb
      exact absurd hb List.not_mem_nil
    | succ n ih =>
      intro b hb
      have hpush : "".pushn ' ' (n + 1) = ("".pushn ' ' n).push ' ' := rfl
      rw [hpush, Utf8.encode, String.toList_push, List.flatMap_append] at hb
      rcases List.mem_append.mp hb with hb | hb
      · exact ih b hb
      · obtain rfl : b = 0x20 := List.mem_singleton.mp hb
        decide
  constructor
  · intro depth b hb
    rw [show Layout.indented.line depth = "\n" ++ "".pushn ' ' (2 * depth) from rfl,
      Utf8.encode_append] at hb
    rcases List.mem_append.mp hb with hb | hb
    · obtain rfl : b = 0x0a := List.mem_singleton.mp hb
      decide
    · exact hspaces _ b hb
  · refine ⟨[0x20], by decide, ?_⟩
    intro b hb
    obtain rfl : b = 0x20 := List.mem_singleton.mp hb
    decide

/-- The bytes of items that follow each other. -/
def Layout.itemBytes (l : Layout) (depth : Nat) : (first : Bool) → List String → Bytes
  | _, [] => []
  | first, text :: more =>
    separator first ++ (Utf8.encode (l.line depth) ++ (Utf8.encode text ++ l.itemBytes depth false more))

theorem Layout.encode_items (l : Layout) (depth : Nat) (texts : List String) :
    Utf8.encode (l.items depth texts) = l.itemBytes depth true texts := by
  -- the items after the first one begin with a comma
  induction texts with
  | nil =>
    rw [Layout.items, List.map_nil, String.intercalate_nil]
    exact Utf8.encode_empty
  | cons text more ih =>
    cases more with
    | nil => simp [Layout.items, Layout.itemBytes, separator]
    | cons next more =>
      have hitems : l.items depth (text :: next :: more) =
          l.line depth ++ text ++ "," ++ l.items depth (next :: more) :=
        String.intercalate_cons_cons
      rw [hitems, Utf8.encode_append, ih]
      have hcomma : Utf8.encode "," = [0x2c] := by decide
      simp only [Utf8.encode_append, hcomma, Layout.itemBytes, separator]
      simp

/-- After the items there is a comma, or what closes them. -/
theorem Layout.ends_itemBytes (l : Layout) (depth : Nat) (texts : List String) {blanks : Bytes}
    (blank : Blanks blanks) {close : UInt8} (hclose : close = 0x5d ∨ close = 0x7d) (rest : Bytes) :
    Ends (l.itemBytes depth false texts ++ (blanks ++ close :: rest)) := by
  cases texts with
  | nil =>
    refine ends_append blank ?_
    intro b hb
    obtain rfl : close = b := Option.some.inj hb
    exact Or.inr (hclose.imp_right Or.inl)
  | cons text more =>
    intro b hb
    obtain rfl : 0x2c = b := Option.some.inj hb
    exact Or.inl rfl

/-! ## Arrays -/

/-- A text that can be an element: it begins, and not with what closes an array. -/
def Opens (text : String) : Prop :=
  ∃ b more, Utf8.encode text = b :: more ∧ isBlank b = false ∧ b ≠ 0x5d

theorem Layout.length_le_itemBytes (l : Layout) (depth : Nat) {texts : List String}
    (opens : ∀ text ∈ texts, Opens text) :
    ∀ first, texts.length ≤ (l.itemBytes depth first texts).length := by
  induction texts with
  | nil =>
    intro first
    exact Nat.zero_le _
  | cons text more ih =>
    intro first
    obtain ⟨b, others, htext, -, -⟩ := opens text List.mem_cons_self
    have hmore := ih (fun t ht => opens t (List.mem_cons_of_mem text ht)) false
    simp only [itemBytes, htext, List.length_append, List.length_cons]
    omega

section

variable {blanks : Bytes} (blank : Blanks blanks)

include blank

theorem pastClose_append {close : UInt8} (solid : isBlank close = false) (rest : Bytes) :
    pastClose close (blanks ++ close :: rest) = rest := by
  simp only [pastClose, skipBlank_append blank solid, if_true]

theorem nextElement_close (first : Bool) (rest : Bytes) :
    nextElement first (blanks ++ 0x5d :: rest) = .ok none := by
  simp only [nextElement, skipBlank_append blank (show isBlank 0x5d = false by decide), if_true]

theorem nextElement_separator {b : UInt8} (solid : isBlank b = false) (open' : b ≠ 0x5d)
    (first : Bool) (rest : Bytes) :
    nextElement first (separator first ++ (blanks ++ b :: rest)) = .ok (some (b :: rest)) := by
  cases first with
  | true =>
    simp [nextElement, separator, skipBlank_append blank solid, open']
  | false =>
    have hcomma : skipBlank (0x2c :: (blanks ++ b :: rest)) = 0x2c :: (blanks ++ b :: rest) :=
      List.dropWhile_cons_of_neg (by decide)
    simp [nextElement, separator, hcomma, skipBlank_append blank solid, open']

theorem nextMember_close (first : Bool) (rest : Bytes) :
    nextMember first (blanks ++ 0x7d :: rest) = .ok none := by
  simp only [nextMember, skipBlank_append blank (show isBlank 0x7d = false by decide), if_true]

theorem nextMember_separator (first : Bool) (rest : Bytes) :
    nextMember first (separator first ++ (blanks ++ 0x22 :: rest)) = .ok (some rest) := by
  have hquote := skipBlank_append blank (show isBlank 0x22 = false by decide) rest
  cases first with
  | true =>
    simp [nextMember, separator, hquote]
  | false =>
    have hcomma : skipBlank (0x2c :: (blanks ++ 0x22 :: rest)) = 0x2c :: (blanks ++ 0x22 :: rest) :=
      List.dropWhile_cons_of_neg (by decide)
    simp [nextMember, separator, hcomma, hquote]

end

variable {α δ : Type} {l : Layout}

/-- Elements are read one after the other, up to the end of the array. -/
theorem readArrayItems_itemBytes (neutral : l.Neutral) {item : Reader α} {text : α → String}
    (depth : Nat) {blanks : Bytes} (blank : Blanks blanks) (rest : Bytes) (xs : List α) :
    ∀ first fuel, (∀ x ∈ xs, Opens (text x) ∧ Reads item (text x) x) → xs.length < fuel →
      readArrayItems item fuel first
        (l.itemBytes depth first (xs.map text) ++ (blanks ++ 0x5d :: rest)) = .ok (xs, rest) := by
  induction xs with
  | nil =>
    intro first fuel _ enough
    cases fuel with
    | zero => omega
    | succ fuel =>
      rw [List.map_nil, Layout.itemBytes, List.nil_append, readArrayItems, nextElement_close blank]
      simp only [bind, Except.bind, pure, Except.pure,
        pastClose_append blank (show isBlank 0x5d = false by decide)]
  | cons x xs ih =>
    intro first fuel each enough
    obtain ⟨⟨b, others, htext, solid, notClose⟩, reads⟩ := each x List.mem_cons_self
    -- the blanks before an element are dropped by the step to it
    cases fuel with
    | zero => omega
    | succ fuel =>
      rw [List.length_cons] at enough
      have ends := l.ends_itemBytes depth (xs.map text) blank (Or.inl rfl) rest
      have hitem := reads [] _ (fun b hb => absurd hb List.not_mem_nil) ends
      rw [htext, List.nil_append, List.cons_append] at hitem
      have hnext := nextElement_separator (neutral.line depth) solid notClose first
        (others ++ (l.itemBytes depth false (xs.map text) ++ (blanks ++ 0x5d :: rest)))
      have hmore := ih false fuel (fun y hy => each y (List.mem_cons_of_mem x hy)) (by omega)
      rw [readArrayItems, List.map_cons, Layout.itemBytes, htext]
      simp only [List.append_assoc, List.cons_append] at hnext hitem hmore ⊢
      rw [hnext]
      simp only [bind, Except.bind, hitem, hmore]
      rfl

/-- An array of elements that are read back is read back. -/
theorem Reads.array (neutral : l.Neutral) {item : Reader α} {text : α → String} (depth : Nat)
    {xs : List α} (each : ∀ x ∈ xs, Opens (text x) ∧ Reads item (text x) x) :
    Reads (readArray item) (l.array depth (xs.map text)) xs := by
  intro blanks rest blank _
  have hopen : ∀ inside, skipBlank (blanks ++ 0x5b :: inside) = 0x5b :: inside :=
    skipBlank_append blank (by decide)
  have hopens : ∀ t ∈ xs.map text, Opens t := by
    intro t ht
    obtain ⟨x, hx, rfl⟩ := List.mem_map.mp ht
    exact (each x hx).1
  -- an array without elements is written without blanks
  obtain ⟨inner, hinner, htext⟩ : ∃ inner, Blanks inner ∧ Utf8.encode (l.array depth (xs.map text)) =
      0x5b :: (l.itemBytes (depth + 1) true (xs.map text) ++ (inner ++ [0x5d])) := by
    cases xs with
    | nil =>
      have hempty : Utf8.encode "[]" = [0x5b, 0x5d] := by decide
      exact ⟨[], fun b hb => absurd hb List.not_mem_nil, hempty⟩
    | cons x xs =>
      refine ⟨Utf8.encode (l.line depth), neutral.line depth, ?_⟩
      have hparts : l.array depth ((x :: xs).map text) =
          "[" ++ l.items (depth + 1) ((x :: xs).map text) ++ l.line depth ++ "]" := rfl
      have hbracket : Utf8.encode "[" = [0x5b] ∧ Utf8.encode "]" = [0x5d] := by decide
      rw [hparts, Utf8.encode_append, Utf8.encode_append, Utf8.encode_append, l.encode_items,
        hbracket.1, hbracket.2, List.append_assoc, List.append_assoc]
      rfl
  have hlong := l.length_le_itemBytes (depth + 1) hopens true
  have hitems := readArrayItems_itemBytes neutral (depth + 1) hinner rest xs true
    ((l.itemBytes (depth + 1) true (xs.map text) ++ (inner ++ 0x5d :: rest)).length + 1) each (by
      rw [List.length_map] at hlong
      rw [List.length_append]
      omega)
  simp only [readArray, htext, List.cons_append, hopen, List.append_assoc, List.nil_append, if_true,
    hitems]

/-! ## Records -/

/-- A written member of an object. -/
def Layout.member (l : Layout) (m : String × String) : String := quote m.1 ++ l.colon ++ m.2

/-- Members that fill in a record, one field after the other, each of them once. -/
inductive Fills (shape : Shape δ) : δ → List (String × String) → δ → Prop where
  | done (record : δ) : Fills shape record [] record
  | member {record record' record'' : δ} {name value : String} {others : List (String × String)}
      {field : Field δ} (find : shape.fields.find? (·.name = name) = some field)
      (unset : field.isSet record = false) (reads : Reads (field.read record) value record')
      (more : Fills shape record' others record'') :
      Fills shape record ((name, value) :: others) record''

/-- Nothing is missing in a record. -/
def Shape.Complete (shape : Shape δ) (record : δ) : Prop :=
  shape.fields.find? (! ·.isSet record) = none

theorem skipColon_append {blanks : Bytes} (rest : Bytes) :
    skipColon (0x3a :: (blanks ++ rest)) = .ok ((), blanks ++ rest) := by
  have hcolon : skipBlank (0x3a :: (blanks ++ rest)) = 0x3a :: (blanks ++ rest) :=
    List.dropWhile_cons_of_neg (by decide)
  simp only [skipColon, hcolon, if_true]

/-- The members of an object are read one after the other, up to its end. -/
theorem readMembers_itemBytes (neutral : l.Neutral) {shape : Shape δ} (depth : Nat) {blanks : Bytes}
    (blank : Blanks blanks) (rest : Bytes) {record final : δ} {members : List (String × String)}
    (fills : Fills shape record members final) (complete : shape.Complete final) :
    ∀ first fuel, members.length < fuel →
      shape.readMembers fuel first record
        (l.itemBytes depth first (members.map l.member) ++ (blanks ++ 0x7d :: rest)) =
          .ok (final, rest) := by
  induction fills with
  | done record =>
    intro first fuel enough
    cases fuel with
    | zero => omega
    | succ fuel =>
      rw [List.map_nil, Layout.itemBytes, List.nil_append, Shape.readMembers, nextMember_close blank]
      rw [Shape.Complete] at complete
      simp only [bind, Except.bind, pure, Except.pure, complete,
        pastClose_append blank (show isBlank 0x7d = false by decide)]
  | @member record record' record'' name value others field find unset reads more ih =>
    intro first fuel enough
    obtain ⟨gap, hcolon, hgap⟩ := neutral.colon
    cases fuel with
    | zero => omega
    | succ fuel =>
      rw [List.length_cons] at enough
      have ends := l.ends_itemBytes depth (others.map l.member) blank (Or.inr rfl) rest
      have hmore := ih complete false fuel (by omega)
      have hvalue := reads gap _ hgap ends
      have hmember : Utf8.encode (l.member (name, value)) = 0x22 :: (body name.toList ++ 0x22 ::
          0x3a :: (gap ++ Utf8.encode value)) := by
        rw [Layout.member, Utf8.encode_append, Utf8.encode_append, encode_quote, hcolon]
        simp
      have hnext := nextMember_separator (neutral.line depth) first (body name.toList ++ 0x22 ::
        0x3a :: (gap ++ (Utf8.encode value ++
          (l.itemBytes depth false (others.map l.member) ++ (blanks ++ 0x7d :: rest)))))
      rw [Shape.readMembers, List.map_cons, Layout.itemBytes, hmember]
      simp only [List.append_assoc, List.cons_append] at hnext hvalue hmore ⊢
      rw [hnext]
      simp only [bind, Except.bind, readString_body, find, unset, skipColon_append, hvalue, hmore]
      rfl

theorem Layout.encode_object (l : Layout) (depth : Nat) (members : List (String × String)) :
    Utf8.encode (l.object depth members) = 0x7b ::
      (l.itemBytes (depth + 1) true (members.map l.member) ++
        (Utf8.encode (l.line depth) ++ [0x7d])) := by
  have hparts : l.object depth members =
      "\x7b" ++ l.items (depth + 1) (members.map l.member) ++ l.line depth ++ "\x7d" := rfl
  have hbrace : Utf8.encode "\x7b" = [0x7b] ∧ Utf8.encode "\x7d" = [0x7d] := by decide
  rw [hparts, Utf8.encode_append, Utf8.encode_append, Utf8.encode_append, l.encode_items,
    hbrace.1, hbrace.2, List.append_assoc, List.append_assoc]
  rfl

theorem opens_object (l : Layout) (depth : Nat) (members : List (String × String)) :
    Opens (l.object depth members) :=
  ⟨0x7b, _, l.encode_object depth members, by decide, by decide⟩

/-- An object whose members fill in a record is read as that record. -/
theorem Reads.object (neutral : l.Neutral) {shape : Shape δ} (depth : Nat) {final : δ}
    {members : List (String × String)} (fills : Fills shape shape.empty members final)
    (complete : shape.Complete final) : Reads shape.read (l.object depth members) final := by
  intro blanks rest blank _
  have hopen : ∀ inside, skipBlank (blanks ++ 0x7b :: inside) = 0x7b :: inside :=
    skipBlank_append blank (by decide)
  have hopens : ∀ t ∈ members.map l.member, Opens t := by
    intro t ht
    obtain ⟨m, -, rfl⟩ := List.mem_map.mp ht
    refine ⟨0x22, body m.1.toList ++ 0x22 :: Utf8.encode (l.colon ++ m.2), ?_, by decide, by decide⟩
    rw [Layout.member, String.append_assoc, Utf8.encode_append, encode_quote]
    simp
  have hlong := l.length_le_itemBytes (depth + 1) hopens true
  have hmembers := readMembers_itemBytes neutral (depth + 1) (neutral.line depth) rest fills complete
    true ((l.itemBytes (depth + 1) true (members.map l.member) ++
      (Utf8.encode (l.line depth) ++ 0x7d :: rest)).length + 1) (by
        rw [List.length_map] at hlong
        rw [List.length_append]
        omega)
  simp only [Shape.read, l.encode_object, List.cons_append, hopen, List.append_assoc, List.nil_append, if_true,
    hmembers]

/-! ## Whole texts -/

/-- A written value with blanks after it is a whole text. -/
theorem Reads.all {value : Reader α} {text : String} {x : α} (reads : Reads value text x)
    {after : Bytes} (blank : Blanks after) : readAll value (Utf8.encode text ++ after) = .ok x := by
  have ends : Ends after := by
    intro b hb
    exact Or.inr (Or.inr (Or.inr (blank b (List.mem_of_mem_head? hb))))
  have hvalue := reads [] after (fun b hb => absurd hb List.not_mem_nil) ends
  have hafter : skipBlank after = [] := by
    rw [← List.append_nil after, skipBlank, List.dropWhile_append_of_pos blank]
    rfl
  rw [List.nil_append] at hvalue
  simp only [readAll, hvalue, bind, Except.bind, hafter]
  rfl

end BenchHarness.Json
