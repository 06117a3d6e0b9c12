import BenchHarness.Text.Utf8

/-!
# What a JSON text is

The grammar of JSON without any reader: which bytes are a value (`Json.Value`), a string of given
characters (`Json.StringOf`), an array of given items (`Json.ArrayOf`) and an object of given members
(`Json.ObjectOf`). A record is an object with given members in any order and any others between them
(`Json.Record`).
-/

namespace BenchHarness.Json

/-! ## Gaps and numbers -/

/-- Spaces, tabs, line feeds and carriage returns, which may stand between the parts of a text. -/
def Gap (s : Bytes) : Prop := ∀ b ∈ s, b ∈ [0x20, 0x09, 0x0a, 0x0d]

/-- At least one decimal digit. -/
def Digits (s : Bytes) : Prop := s ≠ [] ∧ ∀ b ∈ s, 0x30 ≤ b ∧ b ≤ 0x39

/-- The whole part of a number: a zero in front stands alone. -/
def Whole (s : Bytes) : Prop := Digits s ∧ (s.head? = some 0x30 → s = [0x30])

/-- The decimals of a number, if there are any. -/
def Fraction (s : Bytes) : Prop := s = [] ∨ ∃ digits, Digits digits ∧ s = 0x2e :: digits

/-- The exponent of a number, if there is one. -/
def Exponent (s : Bytes) : Prop :=
  s = [] ∨ ∃ mark sign digits, mark ∈ [0x65, 0x45] ∧ sign ∈ [[], [0x2b], [0x2d]] ∧ Digits digits ∧
    s = mark :: (sign ++ digits)

/-- A number after its sign. -/
inductive Numeral : Bytes → Prop where
  | parts {whole fraction exponent : Bytes} (hwhole : Whole whole) (hfraction : Fraction fraction)
      (hexponent : Exponent exponent) : Numeral (whole ++ (fraction ++ exponent))

/-! ## Strings -/

/-- The escapes of one letter and what they stand for. -/
def letters : List (UInt8 × Char) :=
  [(0x22, '\x22'), (0x5c, '\\'), (0x2f, '/'), (0x62, '\x08'), (0x66, '\x0c'), (0x6e, '\n'),
    (0x72, '\r'), (0x74, '\t')]

/-- A hexadecimal digit in either case. -/
def HexDigit (b : UInt8) (n : Nat) : Prop :=
  n < 10 ∧ b.toNat = 0x30 + n ∨
    10 ≤ n ∧ n < 16 ∧ (b.toNat = 0x41 + (n - 10) ∨ b.toNat = 0x61 + (n - 10))

/-- Four hexadecimal digits. -/
inductive Hex : Bytes → Nat → Prop where
  | digits {b₁ b₂ b₃ b₄ : UInt8} {n₁ n₂ n₃ n₄ : Nat} (h₁ : HexDigit b₁ n₁) (h₂ : HexDigit b₂ n₂)
      (h₃ : HexDigit b₃ n₃) (h₄ : HexDigit b₄ n₄) :
      Hex [b₁, b₂, b₃, b₄] (((n₁ * 16 + n₂) * 16 + n₃) * 16 + n₄)

/-- What may stand between the quotes of a string, whether it makes characters or not. -/
inductive Body : Bytes → Prop where
  | nil : Body []
  | plain {b : UInt8} {s : Bytes} (quote : b ≠ 0x22) (backslash : b ≠ 0x5c) (control : 0x20 ≤ b)
      (more : Body s) : Body (b :: s)
  | letter {b : UInt8} {c : Char} {s : Bytes} (listed : (b, c) ∈ letters) (more : Body s) :
      Body (0x5c :: b :: s)
  | hex {digits s : Bytes} {n : Nat} (hdigits : Hex digits n) (more : Body s) :
      Body (0x5c :: 0x75 :: (digits ++ s))

/-- What stands between the quotes for some characters: each of them as it is or escaped, those past
the first plane as a surrogate pair. -/
inductive Spells : List Char → Bytes → Prop where
  | nil : Spells [] []
  | plain {c : Char} {chars : List Char} {s : Bytes} (quote : c ≠ '\x22') (backslash : c ≠ '\\')
      (control : 0x20 ≤ c.toNat) (more : Spells chars s) :
      Spells (c :: chars) (String.utf8EncodeChar c ++ s)
  | letter {b : UInt8} {c : Char} {chars : List Char} {s : Bytes} (listed : (b, c) ∈ letters)
      (more : Spells chars s) : Spells (c :: chars) (0x5c :: b :: s)
  | hex {c : Char} {chars : List Char} {digits s : Bytes} (hdigits : Hex digits c.toNat)
      (more : Spells chars s) : Spells (c :: chars) (0x5c :: 0x75 :: (digits ++ s))
  | pair {c : Char} {chars : List Char} {high low s : Bytes} (past : 0x10000 ≤ c.toNat)
      (hhigh : Hex high (0xd800 + (c.toNat - 0x10000) / 0x400))
      (hlow : Hex low (0xdc00 + (c.toNat - 0x10000) % 0x400)) (more : Spells chars s) :
      Spells (c :: chars) (0x5c :: 0x75 :: (high ++ 0x5c :: 0x75 :: (low ++ s)))

/-- A quoted string. -/
inductive Quoted : Bytes → Prop where
  | quotes {inner : Bytes} (body : Body inner) : Quoted (0x22 :: (inner ++ [0x22]))

/-- A quoted string that makes a text. -/
inductive StringOf (text : String) : Bytes → Prop where
  | quotes {inner : Bytes} (spells : Spells text.toList inner) :
      StringOf text (0x22 :: (inner ++ [0x22]))

/-! ## Arrays and objects -/

/-- The bytes that separate an item from what stands before it. -/
def separator (first : Bool) : Bytes := if first then [] else [0x2c]

/-- The remaining items of a listing, with gaps around them and commas between them, and the byte that
closes it. -/
inductive Items {α : Type} (Item : α → Bytes → Prop) (close : UInt8) :
    (first : Bool) → List α → Bytes → Prop where
  | done {first : Bool} {gap : Bytes} (hgap : Gap gap) : Items Item close first [] (gap ++ [close])
  | item {first : Bool} {x : α} {xs : List α} {gap lead text more : Bytes} (hgap : Gap gap)
      (hlead : Gap lead) (htext : Item x text) (hmore : Items Item close false xs more) :
      Items Item close first (x :: xs) (gap ++ (separator first ++ (lead ++ (text ++ more))))

/-- A member of an object: the text of its name and the text of its value. -/
inductive Member : Bytes × Bytes → Bytes → Prop where
  | colon {name value before after : Bytes} (hbefore : Gap before) (hafter : Gap after) :
      Member (name, value) (name ++ (before ++ 0x3a :: (after ++ value)))

/-- A value of any kind. -/
inductive Value : Bytes → Prop where
  | word {word : String} (listed : word ∈ ["null", "true", "false"]) : Value (Utf8.encode word)
  | number {s : Bytes} (numeral : Numeral s) : Value s
  | negative {s : Bytes} (numeral : Numeral s) : Value (0x2d :: s)
  | string {s : Bytes} (quoted : Quoted s) : Value s
  | array {values : List Bytes} {more : Bytes} (items : Items Eq 0x5d true values more)
      (each : ∀ value ∈ values, Value value) : Value (0x5b :: more)
  | object {members : List (Bytes × Bytes)} {more : Bytes} (items : Items Member 0x7d true members more)
      (names : ∀ m ∈ members, Quoted m.1) (each : ∀ m ∈ members, Value m.2) : Value (0x7b :: more)

/-- A member with a name that is a text. -/
inductive Named : String × Bytes → Bytes → Prop where
  | member {name : String} {written value text : Bytes} (hname : StringOf name written)
      (hmember : Member (written, value) text) : Named (name, value) text

/-- An array of some items. -/
inductive ArrayOf {α : Type} (Item : α → Bytes → Prop) (xs : List α) : Bytes → Prop where
  | brackets {more : Bytes} (items : Items Item 0x5d true xs more) : ArrayOf Item xs (0x5b :: more)

/-- An object of some members: their names and the texts of their values, in the order in which they are
written. -/
inductive ObjectOf (members : List (String × Bytes)) : Bytes → Prop where
  | braces {more : Bytes} (items : Items Named 0x7d true members more) : ObjectOf members (0x7b :: more)

/-- An object with some members in any order and any others with other names between them. -/
def Record (known : List (String × Bytes)) (s : Bytes) : Prop :=
  ∃ members others, ObjectOf members s ∧ members.Perm (known ++ others) ∧
    ∀ m ∈ others, m.1 ∉ known.map Prod.fst ∧ Value m.2

/-- A text is some bytes with gaps around them. -/
def Holds (text : String) (s : Bytes) : Prop :=
  ∃ before after, Gap before ∧ Gap after ∧ Utf8.encode text = before ++ (s ++ after)

/-! ## Plain texts -/

/-- Whether a character may stand in a string as it is. -/
def isPlain (c : Char) : Bool := c ≠ '\x22' && c ≠ '\\' && 0x20 ≤ c.toNat

/-- Characters that need no escape may stand as they are. -/
theorem stringOf_plain {text : String} (plain : text.toList.all isPlain = true) :
    StringOf text (0x22 :: (Utf8.encode text ++ [0x22])) := by
  refine .quotes ?_
  rw [Utf8.encode]
  generalize text.toList = chars at plain
  induction chars with
  | nil => exact .nil
  | cons c chars ih =>
    rw [List.all_cons, Bool.and_eq_true] at plain
    obtain ⟨hc, plain⟩ := plain
    simp only [isPlain, Bool.and_eq_true, decide_eq_true_eq] at hc
    obtain ⟨⟨quote, backslash⟩, control⟩ := hc
    rw [List.flatMap_cons]
    exact .plain quote backslash control (ih plain)

/-- A member without gaps and escapes. -/
theorem named_plain {name : String} (value : Bytes) (plain : name.toList.all isPlain = true) :
    Named (name, value) ((0x22 :: (Utf8.encode name ++ [0x22])) ++ ([] ++ 0x3a :: ([] ++ value))) :=
  .member (stringOf_plain plain) (.colon (fun _ h => absurd h List.not_mem_nil) fun _ h =>
    absurd h List.not_mem_nil)

end BenchHarness.Json
