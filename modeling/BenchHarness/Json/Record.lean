import BenchHarness.Json.Scan
import BenchHarness.Text.Quoted

/-!
# Reading records from JSON

A record with named fields is written as an object with those members, in any order and among
others, or as an array of the fields in order. A text that is JSON but does not fit is reported with
what was found and what was wanted.
-/

namespace BenchHarness.Json

/-! ## Unwanted values -/

/-- What was found instead of the wanted value. -/
def Number.found : Number → String
  | .natural n => "integer \x60" ++ toString n ++ "\x60"
  | .negative n => "integer \x60-" ++ toString n ++ "\x60"
  | .double isNegative x =>
    "floating point \x60" ++ DecimalStyle.scientific.text isNegative x ++ "\x60"

/-- A value of a wrong type. -/
def wrongType (found wanted : String) : Problem :=
  .unwanted ("invalid type: " ++ found ++ ", expected " ++ wanted)

/-- The fault of a value that is of none of the wanted types; the value is read as far as it takes
to name it. -/
def mismatch (wanted : String) (s : Bytes) : Fault :=
  let named (found : String) (rest : Bytes) : Fault := ⟨wrongType found wanted, rest⟩
  let word (letters : List UInt8) (found : String) (rest : Bytes) : Fault :=
    match scanWord letters rest with
    | .ok (_, rest) => named found rest
    | .error fault => fault
  let number (negative : Bool) (rest : Bytes) : Fault :=
    match scanNumber negative rest with
    | .ok (n, rest) => named n.found rest
    | .error fault => fault
  match s with
  | [] => atNext .expectedValue []
  | b :: rest =>
    if b = 0x6e then word [0x75, 0x6c, 0x6c] "null" rest
    else if b = 0x74 then word [0x72, 0x75, 0x65] "boolean \x60true\x60" rest
    else if b = 0x66 then word [0x61, 0x6c, 0x73, 0x65] "boolean \x60false\x60" rest
    else if b = 0x2d then number true rest
    else if isDigit b then number false s
    else if b = 0x22 then
      match readString rest with
      | .ok (text, rest) => named ("string " ++ Text.quoted text) rest
      | .error fault => fault
    else if b = 0x5b then named "sequence" s
    else if b = 0x7b then named "map" s
    else atNext .expectedValue s

/-! ## Simple values -/

/-- A string, described as `wanted` in messages. -/
def readText (wanted : String) : Reader String := fun s =>
  match skipBlank s with
  | [] => .error (atNext .eofInValue [])
  | b :: rest => if b = 0x22 then readString rest else .error (mismatch wanted (b :: rest))

/-- A 64-bit count, described as `wanted` in messages. -/
def readCount (wanted : String) : Reader UInt64 := fun s =>
  let whole (negative : Bool) (rest : Bytes) : Except Fault (UInt64 × Bytes) := do
    let (n, rest) ← scanNumber negative rest
    match n with
    | .natural n => pure (UInt64.ofNat n, rest)
    | .negative _ =>
      throw ⟨.unwanted ("invalid value: " ++ n.found ++ ", expected " ++ wanted), rest⟩
    | .double _ _ => throw ⟨wrongType n.found wanted, rest⟩
  match skipBlank s with
  | [] => .error (atNext .eofInValue [])
  | b :: rest =>
    if b = 0x2d then whole true rest
    else if isDigit b then whole false (b :: rest)
    else .error (mismatch wanted (b :: rest))

/-! ## Ends of objects and arrays -/

/-- The end of an array all of whose elements have been read. -/
def closeArray : Reader Unit := fun s =>
  match skipBlank s with
  | [] => .error (atNext .eofInArray [])
  | b :: rest =>
    if b = 0x5d then .ok ((), rest)
    else if b = 0x2c then
      match skipBlank rest with
      | [] => .error (atNext .trailingCharacters [])
      | c :: more =>
        .error (atNext (if c = 0x5d then .trailingComma else .trailingCharacters) (c :: more))
    else .error (atNext .trailingCharacters (b :: rest))

/-- The place after a closing byte, or before whatever stands there instead. -/
def pastClose (close : UInt8) (s : Bytes) : Bytes :=
  match skipBlank s with
  | [] => []
  | b :: rest => if b = close then rest else b :: rest

/-- Steps to the next element of an array: the place of the element, or `none` at the end. -/
def nextElement (first : Bool) (s : Bytes) : Except Fault (Option Bytes) :=
  match skipBlank s with
  | [] => .error (atNext .eofInArray [])
  | b :: rest =>
    if b = 0x5d then .ok none
    else if first then .ok (some (b :: rest))
    else if b = 0x2c then
      match skipBlank rest with
      | [] => .error (atNext .eofInValue [])
      | c :: more =>
        if c = 0x5d then .error (atNext .trailingComma (c :: more)) else .ok (some (c :: more))
    else .error (atNext .expectedArrayEnd (b :: rest))

/-- Steps to the next member of an object: the place after its opening quote, or `none` at the
end. -/
def nextMember (first : Bool) (s : Bytes) : Except Fault (Option Bytes) :=
  match skipBlank s with
  | [] => .error (atNext .eofInObject [])
  | b :: rest =>
    if b = 0x7d then .ok none
    else if first then
      if b = 0x22 then .ok (some rest) else .error (atNext .expectedName (b :: rest))
    else if b = 0x2c then
      match skipBlank rest with
      | [] => .error (atNext .eofInValue [])
      | c :: more =>
        if c = 0x22 then .ok (some more)
        else if c = 0x7d then .error (atNext .trailingComma (c :: more))
        else .error (atNext .expectedName (c :: more))
    else .error (atNext .expectedObjectEnd (b :: rest))

/-! ## Records -/

/-- A field of a record that is filled in piece by piece. -/
structure Field (δ : Type) where
  name : String
  isSet : δ → Bool
  /-- Reads the field's value into the record. -/
  read : δ → Reader δ

/-- A record type: what it is called in messages, its fields in order, and the empty record. -/
structure Shape (δ : Type) where
  wanted : String
  fields : List (Field δ)
  empty : δ

namespace Shape

variable {δ : Type}

/-- Reads the members of an object up to its end. -/
def readMembers (shape : Shape δ) : (fuel : Nat) → (first : Bool) → δ → Reader δ
  | 0, _, _, s => .error ⟨.eofInObject, s⟩
  | fuel + 1, first, record, s => do
    match ← nextMember first s with
    | none =>
      match shape.fields.find? (! ·.isSet record) with
      | some field =>
        throw ⟨.unwanted ("missing field \x60" ++ field.name ++ "\x60"), pastClose 0x7d s⟩
      | none => pure (record, pastClose 0x7d s)
    | some s =>
      let (name, s) ← readString s
      match shape.fields.find? (·.name = name) with
      | none =>
        let (_, s) ← skipColon s
        let (_, s) ← skipAny s
        shape.readMembers fuel false record s
      | some field =>
        if field.isSet record then
          throw ⟨.unwanted ("duplicate field \x60" ++ name ++ "\x60"), pastClose 0x7d s⟩
        let (_, s) ← skipColon s
        let (record, s) ← field.read record s
        shape.readMembers fuel false record s

/-- Reads the fields from the elements of an array, in order. -/
def readElements (shape : Shape δ) : (index : Nat) → List (Field δ) → δ → Reader δ
  | _, [], record, s => do
    let (_, s) ← closeArray s
    pure (record, s)
  | index, field :: more, record, s => do
    match ← nextElement (index = 0) s with
    | none =>
      throw ⟨.unwanted ("invalid length " ++ toString index ++ ", expected " ++ shape.wanted ++
        " with " ++ toString shape.fields.length ++ " elements"), pastClose 0x5d s⟩
    | some s =>
      let (record, s) ← field.read record s
      shape.readElements (index + 1) more record s

/-- Reads a record in either form. -/
def read (shape : Shape δ) : Reader δ := fun s =>
  match skipBlank s with
  | [] => .error (atNext .eofInValue [])
  | b :: rest =>
    if b = 0x7b then shape.readMembers (rest.length + 1) true shape.empty rest
    else if b = 0x5b then shape.readElements 0 shape.fields shape.empty rest
    else .error (mismatch shape.wanted (b :: rest))

end Shape

/-- Reads the elements of an array up to its end. -/
def readArrayItems {α : Type} (item : Reader α) : (fuel : Nat) → (first : Bool) → Reader (List α)
  | 0, _, s => .error ⟨.eofInArray, s⟩
  | fuel + 1, first, s => do
    match ← nextElement first s with
    | none => pure ([], pastClose 0x5d s)
    | some s =>
      let (x, s) ← item s
      let (more, s) ← readArrayItems item fuel false s
      pure (x :: more, s)

/-- Reads an array of values. -/
def readArray {α : Type} (item : Reader α) : Reader (List α) := fun s =>
  match skipBlank s with
  | [] => .error (atNext .eofInValue [])
  | b :: rest =>
    if b = 0x5b then readArrayItems item (rest.length + 1) true rest
    else .error (mismatch "a sequence" (b :: rest))

/-- Reads a whole text: a value with nothing but blanks after it. -/
def readAll {α : Type} (value : Reader α) (text : Bytes) : Except Fault α := do
  let (x, rest) ← value text
  match skipBlank rest with
  | [] => pure x
  | b :: more => throw (atNext .trailingCharacters (b :: more))

end BenchHarness.Json
