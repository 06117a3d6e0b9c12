import BenchHarness.Text.Utf8

/-!
# Control sequences

A text may hold sequences that a terminal acts on and does not show. `Escapes.scan` goes over the
bytes of a text like a terminal that never does what it is told, and marks every byte that it shows;
`Escapes.strip` keeps those. Control characters are not shown either, unless they are white space.
-/

namespace BenchHarness.Escapes

/-- Which part of a sequence comes next. -/
inductive Place where
  /-- None: plain text. -/
  | ground
  | escape
  | escapeIntermediate
  /-- The part after `ESC [`. -/
  | csiEntry
  | csiParameter
  | csiIntermediate
  | csiIgnored
  /-- The part after `ESC P`. -/
  | dcsEntry
  | dcsParameter
  | dcsIntermediate
  | dcsIgnored
  | dcsText
  /-- A text after `ESC ]`. -/
  | osc
  /-- A text of another kind. -/
  | privateText
  deriving DecidableEq, Repr

/-- Whether a byte is in a range. -/
def within (low high b : UInt8) : Bool := low ≤ b && b ≤ high

/-- Whether a byte may stand before the last one of a sequence. -/
def isIntermediate (b : UInt8) : Bool := within 0x20 0x2f b

/-- Whether a byte ends a control sequence. -/
def isFinal (b : UInt8) : Bool := within 0x40 0x7e b

/-- What follows the byte after an escape character. -/
def afterEscape (b : UInt8) : Place :=
  if isIntermediate b then .escapeIntermediate
  else if b = 0x5b then .csiEntry
  else if b = 0x5d then .osc
  else if b = 0x50 then .dcsEntry
  else if b = 0x58 || b = 0x5e || b = 0x5f then .privateText
  else if within 0x30 0x7e b then .ground
  else .escape

/-- What follows a byte, unless it breaks off every sequence. -/
def follow (place : Place) (b : UInt8) : Place :=
  match place with
  | .ground => .ground
  | .escape => afterEscape b
  | .escapeIntermediate => if within 0x30 0x7e b then .ground else .escapeIntermediate
  | .csiEntry =>
    if isFinal b then .ground
    else if isIntermediate b then .csiIntermediate
    else if within 0x30 0x3f b then .csiParameter
    else .csiEntry
  | .csiParameter =>
    if isFinal b then .ground
    else if isIntermediate b then .csiIntermediate
    else if within 0x3c 0x3f b then .csiIgnored
    else .csiParameter
  | .csiIntermediate =>
    if isFinal b then .ground
    else if within 0x30 0x3f b then .csiIgnored
    else .csiIntermediate
  | .csiIgnored => if isFinal b then .ground else .csiIgnored
  | .dcsEntry =>
    if isFinal b then .dcsText
    else if isIntermediate b then .dcsIntermediate
    else if within 0x30 0x3f b then .dcsParameter
    else .dcsEntry
  | .dcsParameter =>
    if isFinal b then .dcsText
    else if isIntermediate b then .dcsIntermediate
    else if within 0x3c 0x3f b then .dcsIgnored
    else .dcsParameter
  | .dcsIntermediate =>
    if isFinal b then .dcsText
    else if within 0x30 0x3f b then .dcsIgnored
    else .dcsIntermediate
  | .dcsIgnored => .dcsIgnored
  | .dcsText => if b = 0x9c then .ground else .dcsText
  | .osc => if b = 0x07 then .ground else .osc
  | .privateText => if b = 0x9c then .ground else .privateText

/-- What follows a byte: an escape character always starts a sequence, and two control characters
always break one off. -/
def next (place : Place) (b : UInt8) : Place :=
  if b = 0x1b then .escape
  else if b = 0x18 || b = 0x1a then .ground
  else follow place b

/-- Whether control characters are acted on in the middle of what stands at a place. -/
def actsAt : Place → Bool
  | .ground | .escape | .escapeIntermediate => true
  | .csiEntry | .csiParameter | .csiIntermediate | .csiIgnored => true
  | _ => false

/-- Whether a byte below 128 is shown at a place. -/
def isShown (place : Place) (b : UInt8) : Bool :=
  (place = .ground && within 0x20 0x7e b) ||
    (actsAt place && (b = 0x09 || b = 0x0a || b = 0x0c || b = 0x0d))

/-- How many bytes a character has after its first one. -/
def followers (b : UInt8) : Nat :=
  if within 0xc2 0xdf b then 1
  else if within 0xe0 0xef b then 2
  else if within 0xf0 0xf4 b then 3
  else 0

/-- The state between two bytes. -/
structure State where
  place : Place
  /-- How many bytes the current character still has. -/
  more : Nat
  /-- Whether the last byte was shown. Where it was, the next one is taken for plain text first. -/
  isShowing : Bool
  deriving DecidableEq, Repr

/-- Takes a byte as a part of what stands at a place, and tells whether it is shown. -/
def take (place : Place) (b : UInt8) : State × Bool :=
  if place = .ground ∧ 0 < followers b then (⟨.ground, followers b, true⟩, true)
  else if isShown place b then (⟨next place b, 0, true⟩, true)
  else (⟨next place b, 0, false⟩, false)

/-- Takes the next byte, and tells whether it is shown. -/
def State.step (s : State) (b : UInt8) : State × Bool :=
  if 0 < s.more then (⟨.ground, s.more - 1, true⟩, true)
  else if s.isShowing then
    if 0 < followers b then (⟨.ground, followers b, true⟩, true)
    else if isShown .ground b then (s, true)
    else take (if next .ground b = .escape then .escape else s.place) b
  else take s.place b

/-- The bytes of a text, and whether each is shown. -/
def scan : State → Bytes → List (UInt8 × Bool)
  | _, [] => []
  | s, b :: rest => (b, (s.step b).2) :: scan (s.step b).1 rest

/-- The state at the start of a text. -/
def start : State := ⟨.ground, 0, false⟩

/-- What is shown of a text. -/
def strip (text : Bytes) : Bytes := (scan start text).filterMap fun (b, shown) =>
  if shown then some b else none

/-- The longest parts of a text that are either shown or not, and which of the two they are. -/
def parts (text : String) : List (Bool × String) :=
  let runs := (scan start (Utf8.encode text)).splitBy fun a b => a.2 = b.2
  runs.map fun run => (run.head?.any (·.2), Utf8.decodeLossy (run.map (·.1)))

end BenchHarness.Escapes
