import Mathlib.Data.List.Nodup
import BenchHarness.Proofs.JsonMembers

/-!
# Readers stop where a value ends

A reader that takes a value of whatever kind at all stops exactly where that value ends (`Json.Exact`).
This is so for strings, counts, arrays and records, and so a run over the members of an object comes to
each of them: if a record is read from an object, each of its fields was named once and its value was read
(`Json.Lawful.once_of_accepts`).
-/

namespace BenchHarness.Json

/-- A reader that takes a value stops where it ends. -/
def Exact {α : Type} (reader : Reader α) : Prop :=
  ∀ ⦃s blanks rest : Bytes⦄ ⦃x : α⦄ ⦃r : Bytes⦄, Value s → Blanks blanks → Ends rest →
    reader (blanks ++ (s ++ rest)) = .ok (x, r) → r = rest

/-- A reader takes a value somewhere. -/
def Accepts {α : Type} (reader : Reader α) (s : Bytes) : Prop :=
  ∃ blanks rest out, Blanks blanks ∧ Ends rest ∧ reader (blanks ++ (s ++ rest)) = .ok out

theorem bind_eq_ok {α β : Type} {x : Except Fault α} {f : α → Except Fault β} {b : β} :
    x >>= f = .ok b ↔ ∃ a, x = .ok a ∧ f a = .ok b := by
  cases x with
  | error fault => simp [bind, Except.bind]
  | ok a => simp [bind, Except.bind]

section

variable {α β : Type} {reader : Reader α}

/-- It stops there too where the value begins at once. -/
theorem Exact.of_cons (stops : Exact reader) {s rest r : Bytes} {x : α} (value : Value s) (ends : Ends rest)
    (h : reader (s ++ rest) = .ok (x, r)) : r = rest :=
  stops value blanks_nil ends h

theorem Exact.map (stops : Exact reader) (f : α → β) : Exact (fun s => do
    let (x, s) ← reader s
    pure (f x, s)) := by
  intro s blanks rest y r value blank ends h
  obtain ⟨⟨x, t⟩, hread, h⟩ := bind_eq_ok.mp h
  obtain ⟨-, rfl⟩ := Prod.mk.inj (Except.ok.inj h)
  exact stops value blank ends hread

theorem Accepts.of_map (f : α → β) {s : Bytes} (accepts : Accepts (fun s => do
    let (x, s) ← reader s
    pure (f x, s)) s) : Accepts reader s := by
  obtain ⟨blanks, rest, out, blank, ends, h⟩ := accepts
  obtain ⟨read, hread, -⟩ := bind_eq_ok.mp h
  exact ⟨blanks, rest, read, blank, ends, hread⟩

theorem accepts_of_readAll {text : String} {s : Bytes} {x : α} (holds : Holds text s)
    (h : readAll reader (Utf8.encode text) = .ok x) : Accepts reader s := by
  obtain ⟨before, after, hbefore, hafter, htext⟩ := holds
  rw [htext] at h
  obtain ⟨out, hread, -⟩ := bind_eq_ok.mp h
  exact ⟨before, after, out, hbefore.blanks, ends_gap hafter, hread⟩

end

/-! ## What a value is by its first byte -/

/-- The first byte of a value tells what it is. -/
theorem Value.opened {b : UInt8} {more : Bytes} (value : Value (b :: more)) :
    (b = 0x6e ∨ b = 0x74 ∨ b = 0x66 ∨ b = 0x2d) ∨
      isDigit b = true ∧ Numeral (b :: more) ∨
      b = 0x22 ∧ (∃ inner, Body inner ∧ more = inner ++ [0x22]) ∨
      b = 0x5b ∧ (∃ values, Items Eq 0x5d true values more ∧ ∀ v ∈ values, Value v) ∨
      b = 0x7b ∧ ∃ members, Items Member 0x7d true members more ∧
        ∀ m ∈ members, Quoted m.1 ∧ Value m.2 := by
  generalize hs : b :: more = s at value
  cases value with
  | word listed =>
    have hwords : Utf8.encode "null" = [0x6e, 0x75, 0x6c, 0x6c] ∧
        Utf8.encode "true" = [0x74, 0x72, 0x75, 0x65] ∧
        Utf8.encode "false" = [0x66, 0x61, 0x6c, 0x73, 0x65] := by decide
    simp only [List.mem_cons, List.not_mem_nil, or_false] at listed
    rcases listed with rfl | rfl | rfl
    · exact Or.inl (Or.inl (List.cons.inj (hs.trans hwords.1)).1)
    · exact Or.inl (Or.inr (Or.inl (List.cons.inj (hs.trans hwords.2.1)).1))
    · exact Or.inl (Or.inr (Or.inr (Or.inl (List.cons.inj (hs.trans hwords.2.2)).1)))
  | number numeral =>
    obtain ⟨first, others, rfl, digit⟩ := numeral.exists_cons
    obtain ⟨rfl, rfl⟩ := List.cons.inj hs
    exact Or.inr (Or.inl ⟨digit, numeral⟩)
  | negative numeral => exact Or.inl (Or.inr (Or.inr (Or.inr (List.cons.inj hs).1)))
  | string quoted =>
    obtain ⟨body⟩ := quoted
    obtain ⟨rfl, rfl⟩ := List.cons.inj hs
    exact Or.inr (Or.inr (Or.inl ⟨rfl, _, body, rfl⟩))
  | array items each =>
    obtain ⟨rfl, rfl⟩ := List.cons.inj hs
    exact Or.inr (Or.inr (Or.inr (Or.inl ⟨rfl, _, items, each⟩)))
  | object items names each =>
    obtain ⟨rfl, rfl⟩ := List.cons.inj hs
    exact Or.inr (Or.inr (Or.inr (Or.inr ⟨rfl, _, items, fun m hm => ⟨names m hm, each m hm⟩⟩)))

theorem Value.inner {more : Bytes} (value : Value (0x22 :: more)) :
    ∃ inner, Body inner ∧ more = inner ++ [0x22] := by
  rcases value.opened with (h | h | h | h) | ⟨h, -⟩ | ⟨-, inner⟩ | ⟨h, -⟩ | ⟨h, -⟩
  case inr.inr.inl => exact inner
  all_goals exact absurd h (by decide)

theorem Value.numeral {b : UInt8} {more : Bytes} (value : Value (b :: more)) (digit : isDigit b = true) :
    Numeral (b :: more) := by
  rcases value.opened with (rfl | rfl | rfl | rfl) | ⟨-, numeral⟩ | ⟨rfl, -⟩ | ⟨rfl, -⟩ | ⟨rfl, -⟩
  case inr.inl => exact numeral
  all_goals exact absurd digit (by decide)

theorem Value.items {more : Bytes} (value : Value (0x5b :: more)) :
    ∃ values, Items Eq 0x5d true values more ∧ ∀ v ∈ values, Value v := by
  rcases value.opened with (h | h | h | h) | ⟨h, -⟩ | ⟨h, -⟩ | ⟨-, items⟩ | ⟨h, -⟩
  case inr.inr.inr.inl => exact items
  all_goals exact absurd h (by decide)

theorem Value.members {more : Bytes} (value : Value (0x7b :: more)) :
    ∃ members, Items Member 0x7d true members more ∧ ∀ m ∈ members, Quoted m.1 ∧ Value m.2 := by
  rcases value.opened with (h | h | h | h) | ⟨h, -⟩ | ⟨h, -⟩ | ⟨h, -⟩ | ⟨-, members⟩
  case inr.inr.inr.inr => exact members
  all_goals exact absurd h (by decide)

/-! ## Strings -/

/-- Past a hexadecimal escape and the other half it may ask for, a string goes on. -/
theorem scanEscape_body {digits s rest bytes r : Bytes} {n : Nat} (hex : Hex digits n) (body : Body s)
    (h : scanEscape (0x75 :: (digits ++ (s ++ 0x22 :: rest))) = .ok (bytes, r)) :
    ∃ s', Body s' ∧ r = s' ++ 0x22 :: rest := by
  rw [scanEscape_hex hex] at h
  split at h
  · cases h
  split at h
  · -- only another hexadecimal escape can be the other half
    cases body with
    | nil => cases h
    | plain quote backslash control more =>
      rw [List.cons_append, scanLowSurrogate.eq_def] at h
      simp only [ne_eq, backslash, not_false_eq_true, if_true] at h
      cases h
    | letter listed more =>
      have hother := (by decide : ∀ m ∈ letters, m.1 ≠ 0x75) _ listed
      simp only [List.cons_append, scanLowSurrogate, ne_eq, not_true_eq_false, if_false,
        if_pos hother] at h
      cases h
    | hex hdigits more =>
      rw [List.cons_append, List.cons_append, List.append_assoc, scanLowSurrogate_hex hdigits] at h
      split at h
      · cases h
      · exact ⟨_, more, (Prod.mk.inj (Except.ok.inj h)).2.symm⟩
  · exact ⟨s, body, (Prod.mk.inj (Except.ok.inj h)).2.symm⟩

/-- A string that is scanned at all is scanned up to its closing quote. -/
theorem scanString_body {rest : Bytes} (fuel : Nat) :
    ∀ {s bytes r : Bytes}, Body s → scanString fuel (s ++ 0x22 :: rest) = .ok (bytes, r) → r = rest := by
  induction fuel with
  | zero =>
    intro s bytes r _ h
    rw [scanString] at h
    cases h
  | succ fuel ih =>
    intro s bytes r body h
    cases body with
    | nil =>
      rw [List.nil_append, scanString, if_pos rfl] at h
      exact (Prod.mk.inj (Except.ok.inj h)).2.symm
    | @plain b s quote backslash control more =>
      rw [List.cons_append, scanString, if_neg quote, if_neg backslash,
        if_neg (UInt8.not_lt.mpr control)] at h
      obtain ⟨⟨others, r'⟩, hmore, h⟩ := bind_eq_ok.mp h
      obtain rfl : r' = r := (Prod.mk.inj (Except.ok.inj h)).2
      exact ih more hmore
    | @letter b c s listed more =>
      have known := (escapeByte?_of_letters _ listed).1
      rw [List.cons_append, List.cons_append, scanString, if_neg (by decide), if_pos rfl] at h
      obtain ⟨⟨escaped, t⟩, hescape, h⟩ := bind_eq_ok.mp h
      simp only [scanEscape, known] at hescape
      obtain ⟨-, rfl⟩ := Prod.mk.inj (Except.ok.inj hescape)
      obtain ⟨⟨others, r'⟩, hmore, h⟩ := bind_eq_ok.mp h
      obtain rfl : r' = r := (Prod.mk.inj (Except.ok.inj h)).2
      exact ih more hmore
    | @hex digits s n hdigits more =>
      rw [List.cons_append, List.cons_append, List.append_assoc, scanString, if_neg (by decide),
        if_pos rfl] at h
      obtain ⟨⟨escaped, t⟩, hescape, h⟩ := bind_eq_ok.mp h
      obtain ⟨s', body', rfl⟩ := scanEscape_body hdigits more hescape
      obtain ⟨⟨others, r'⟩, hmore, h⟩ := bind_eq_ok.mp h
      obtain rfl : r' = r := (Prod.mk.inj (Except.ok.inj h)).2
      exact ih body' hmore

theorem readString_body_ok {s rest r : Bytes} {x : String} (body : Body s)
    (h : readString (s ++ 0x22 :: rest) = .ok (x, r)) : r = rest := by
  obtain ⟨⟨bytes, r'⟩, hscan, h⟩ := bind_eq_ok.mp h
  obtain rfl : r' = r := (Prod.mk.inj (Except.ok.inj h)).2
  exact scanString_body _ body hscan

theorem exact_readText (wanted : String) : Exact (readText wanted) := by
  intro s blanks rest x r value blank ends h
  obtain ⟨b, more, rfl, solid, -⟩ := value.begins
  rw [List.cons_append] at h
  simp only [readText, skipBlank_append blank solid] at h
  by_cases quote : b = 0x22
  · subst quote
    obtain ⟨inner, body, rfl⟩ := value.inner
    rw [if_pos rfl, List.append_assoc, List.singleton_append] at h
    exact readString_body_ok body h
  · rw [if_neg quote] at h
    cases h

/-! ## Counts -/

/-- Scanning a number gives no natural number. -/
def Unnatural (result : Except Fault (Number × Bytes)) : Prop :=
  ∀ n r, result ≠ .ok (.natural n, r)

theorem unnatural_makeDouble (negative : Bool) (significand : Nat) (exponent : Int) (s : Bytes) :
    Unnatural (makeDouble negative significand exponent s) := by
  intro n r h
  unfold makeDouble at h
  split at h <;> cases h

theorem unnatural_scanExponent (negative : Bool) (significand : Nat) (start : Int) (s : Bytes) :
    Unnatural (scanExponent negative significand start s) := by
  intro n r h
  unfold scanExponent at h
  split at h
  split at h
  · cases h
  split at h
  · split at h
    · exact unnatural_makeDouble _ _ _ _ n r h
    · split at h <;> cases h
  · cases h

theorem unnatural_scanDoubleEnd (negative : Bool) (significand : Nat) (exponent : Int) (s : Bytes) :
    Unnatural (scanDoubleEnd negative significand exponent s) := by
  intro n r h
  unfold scanDoubleEnd at h
  split at h
  · split at h
    · exact unnatural_scanExponent _ _ _ _ n r h
    · exact unnatural_makeDouble _ _ _ _ n r h
  · exact unnatural_makeDouble _ _ _ _ n r h

theorem unnatural_scanDecimals (negative : Bool) (significand : Nat) (start : Int) (s : Bytes) :
    Unnatural (scanDecimals negative significand start s) := by
  intro n r h
  unfold scanDecimals at h
  simp only at h
  split at h
  · split at h
    · exact unnatural_scanDoubleEnd _ _ _ _ n r h
    · split at h
      · cases h
      · exact unnatural_scanDoubleEnd _ _ _ _ n r h
  · split at h
    · cases h
    · exact unnatural_scanDoubleEnd _ _ _ _ n r h

theorem unnatural_scanLong (negative : Bool) (significand : Nat) (s : Bytes) :
    Unnatural (scanLong negative significand s) := by
  intro n r h
  unfold scanLong at h
  simp only at h
  split at h
  · split at h
    · exact unnatural_scanDecimals _ _ _ _ n r h
    · exact unnatural_scanDoubleEnd _ _ _ _ n r h
  · exact unnatural_scanDoubleEnd _ _ _ _ n r h

/-- Neither digits nor decimals nor an exponent follow. -/
def Over (s : Bytes) : Prop := ∀ b ∈ s.head?, isDigit b = false ∧ b ≠ 0x2e ∧ isExponentMark b = false

theorem scanFraction_natural {negative : Bool} {significand n : Nat} {s r : Bytes}
    (h : scanFraction negative significand s = .ok (.natural n, r)) (stop : NoDigit s) :
    negative = false ∧ r = s ∧ Over s := by
  have hwhole : (if ! negative then .ok (.natural significand, s)
      else if significand = 0 ∨ Nat.pow 2 63 < significand then
        .ok (.double true (.ofRatio ⟨significand, 1⟩), s)
      else .ok (.negative significand, s) : Except Fault (Number × Bytes)) = .ok (.natural n, r) →
      negative = false ∧ r = s := by
    cases negative with
    | false => exact fun h => ⟨rfl, (Prod.mk.inj (Except.ok.inj h)).2.symm⟩
    | true =>
      intro h
      simp only [Bool.not_true, Bool.false_eq_true, if_false] at h
      split at h <;> cases h
  unfold scanFraction at h
  simp only at h
  split at h
  · next b rest =>
    split at h
    · exact absurd h (unnatural_scanDecimals _ _ _ _ n r)
    split at h
    · exact absurd h (unnatural_scanExponent _ _ _ _ n r)
    · next notPoint notMark =>
      obtain ⟨unsigned, hr⟩ := hwhole h
      refine ⟨unsigned, hr, ?_⟩
      intro c hc
      obtain rfl : b = c := Option.some.inj hc
      exact ⟨stop b rfl, notPoint, by simpa using notMark⟩
  · obtain ⟨unsigned, hr⟩ := hwhole h
    exact ⟨unsigned, hr, fun c hc => absurd hc (by simp)⟩

/-- Digits are taken off the front. -/
theorem takeDigits_spec (s : Bytes) : ∀ significand taken,
    ∃ digits, s = digits ++ (takeDigits significand taken s).2.2 ∧ ∀ b ∈ digits, isDigit b = true := by
  induction s with
  | nil =>
    intro significand taken
    exact ⟨[], rfl, fun _ h => absurd h List.not_mem_nil⟩
  | cons b s ih =>
    intro significand taken
    rw [takeDigits]
    split
    · next h =>
      obtain ⟨digits, hs, all⟩ := ih (significand * 10 + digitValue b) (taken + 1)
      refine ⟨b :: digits, congrArg (b :: ·) hs, ?_⟩
      intro c hc
      obtain rfl | hc := List.mem_cons.mp hc
      · exact h.1
      · exact all c hc
    · exact ⟨[], rfl, fun _ h => absurd h List.not_mem_nil⟩

/-- A natural number is digits and nothing else. -/
theorem scanNumber_natural {negative : Bool} {n : Nat} {s r : Bytes}
    (h : scanNumber negative s = .ok (.natural n, r)) :
    negative = false ∧ Over r ∧ ∃ digits, s = digits ++ r ∧ ∀ b ∈ digits, isDigit b = true := by
  unfold scanNumber at h
  split at h
  · cases h
  · next b rest =>
    split at h
    · next zero =>
      have digit : isDigit b = true := by
        rw [zero]
        decide
      have stop : NoDigit rest ∧ scanFraction negative 0 rest = .ok (.natural n, r) := by
        split at h
        · next c more =>
          split at h
          · cases h
          · next notDigit => exact ⟨noDigit_cons notDigit more, h⟩
        · exact ⟨noDigit_nil, h⟩
      obtain ⟨unsigned, rfl, ended⟩ := scanFraction_natural stop.2 stop.1
      exact ⟨unsigned, ended, [b], rfl, fun c hc => List.mem_singleton.mp hc ▸ digit⟩
    split at h
    · next digit =>
      obtain ⟨digits, hs, all⟩ := takeDigits_spec rest (digitValue b) 0
      simp only at h
      generalize takeDigits (digitValue b) 0 rest = taken at h hs
      obtain ⟨significand, count, t⟩ := taken
      have stop : NoDigit t ∧ scanFraction negative significand t = .ok (.natural n, r) := by
        simp only at h
        split at h
        · next c more =>
          split at h
          · exact absurd h (unnatural_scanLong _ _ _ n r)
          · next notDigit => exact ⟨noDigit_cons notDigit more, h⟩
        · exact ⟨noDigit_nil, h⟩
      obtain ⟨unsigned, rfl, ended⟩ := scanFraction_natural stop.2 stop.1
      refine ⟨unsigned, ended, b :: digits, congrArg (b :: ·) hs, ?_⟩
      intro c hc
      obtain rfl | hc := List.mem_cons.mp hc
      · exact digit
      · exact all c hc
    · cases h

/-- A number that is scanned as a natural number is scanned up to its end. -/
theorem scanNumber_numeral {negative : Bool} {n : Nat} {s rest r : Bytes} (numeral : Numeral s)
    (ends : Ends rest) (h : scanNumber negative (s ++ rest) = .ok (.natural n, r)) :
    negative = false ∧ r = rest := by
  obtain ⟨unsigned, ended, digits, hs, all⟩ := scanNumber_natural h
  obtain @⟨whole, fraction, exponent, ⟨⟨-, hwhole⟩, -⟩, hfraction, hexponent⟩ := numeral
  -- both readings of the text begin with the same digits
  have hr : r = fraction ++ (exponent ++ rest) := by
    have hdrop := congrArg (List.dropWhile isDigit) hs
    rw [List.append_assoc, List.append_assoc,
      dropWhile_digits hwhole (hfraction.noDigit hexponent ends),
      dropWhile_digits (fun b hb => (isDigit_iff b).mp (all b hb)) fun b hb => (ended b hb).1] at hdrop
    exact hdrop.symm
  refine ⟨unsigned, ?_⟩
  rcases hfraction with rfl | ⟨decimals, -, rfl⟩
  · rcases hexponent with rfl | ⟨mark, sign, power, hmark, -, -, rfl⟩
    · exact hr
    · rw [hr] at ended
      have notMark := (ended mark rfl).2.2
      simp only [List.mem_cons, List.not_mem_nil, or_false] at hmark
      rcases hmark with rfl | rfl <;> exact absurd notMark (by decide)
  · rw [hr] at ended
    exact absurd rfl (ended 0x2e rfl).2.1

theorem exact_readCount (wanted : String) : Exact (readCount wanted) := by
  intro s blanks rest x r value blank ends h
  obtain ⟨b, more, rfl, solid, -⟩ := value.begins
  rw [List.cons_append] at h
  simp only [readCount, skipBlank_append blank solid] at h
  split at h
  · -- behind a sign there is no natural number
    obtain ⟨⟨n, t⟩, hscan, h⟩ := bind_eq_ok.mp h
    cases n with
    | natural n => exact absurd (scanNumber_natural hscan).1 (by decide)
    | negative magnitude => cases h
    | double negative magnitude => cases h
  split at h
  · next digit =>
    obtain ⟨⟨n, t⟩, hscan, h⟩ := bind_eq_ok.mp h
    cases n with
    | natural n =>
      obtain ⟨-, rfl⟩ := Prod.mk.inj (Except.ok.inj h)
      exact (scanNumber_numeral (value.numeral digit) ends hscan).2
    | negative magnitude => cases h
    | double negative magnitude => cases h
  · cases h

/-! ## Arrays -/

section

variable {α : Type} {item : Reader α} (stops : Exact item)

include stops

/-- If the elements of an array are read, each of them is taken and the array is read up to its end. -/
theorem readArrayItems_ok {first : Bool} {values : List Bytes} {s : Bytes}
    (items : Items Eq 0x5d first values s) (each : ∀ v ∈ values, Value v) {rest : Bytes} :
    ∀ {fuel : Nat} {xs : List α} {r : Bytes}, readArrayItems item fuel first (s ++ rest) = .ok (xs, r) →
      r = rest ∧ ∀ v ∈ values, Accepts item v := by
  induction items with
  | @done first gap hgap =>
    intro fuel xs r h
    cases fuel with
    | zero => cases h
    | succ fuel =>
      rw [List.append_assoc, List.singleton_append, readArrayItems, nextElement_close hgap.blanks] at h
      obtain ⟨_, hnone, h⟩ := bind_eq_ok.mp h
      obtain rfl := Except.ok.inj hnone
      obtain ⟨-, rfl⟩ := Prod.mk.inj (Except.ok.inj h)
      exact ⟨pastClose_append hgap.blanks (by decide) rest, fun v hv => absurd hv List.not_mem_nil⟩
  | @item first x values gap lead text more hgap hlead htext hmore ih =>
    intro fuel xs r h
    subst htext
    have value := each x List.mem_cons_self
    have ends := hmore.ends (Or.inl rfl) rest
    cases fuel with
    | zero => cases h
    | succ fuel =>
      simp only [List.append_assoc] at h
      rw [readArrayItems, nextElement_item hgap hlead value.begins] at h
      obtain ⟨_, hsome, h⟩ := bind_eq_ok.mp h
      obtain rfl := Except.ok.inj hsome
      obtain ⟨⟨y, t⟩, hitem, h⟩ := bind_eq_ok.mp h
      obtain rfl : t = more ++ rest := stops.of_cons value ends hitem
      obtain ⟨⟨ys, u⟩, hmore', h⟩ := bind_eq_ok.mp h
      obtain ⟨-, rfl⟩ := Prod.mk.inj (Except.ok.inj h)
      obtain ⟨hu, accepts⟩ := ih (fun v hv => each v (List.mem_cons_of_mem _ hv)) hmore'
      refine ⟨hu, ?_⟩
      intro v hv
      obtain rfl | hv := List.mem_cons.mp hv
      · exact ⟨[], _, _, blanks_nil, ends, hitem⟩
      · exact accepts v hv

theorem exact_readArray : Exact (readArray item) := by
  intro s blanks rest x r value blank ends h
  obtain ⟨b, more, rfl, solid, -⟩ := value.begins
  rw [List.cons_append] at h
  simp only [readArray, skipBlank_append blank solid] at h
  by_cases bracket : b = 0x5b
  · subst bracket
    obtain ⟨values, items, each⟩ := value.items
    rw [if_pos rfl] at h
    exact (readArrayItems_ok stops items each h).1
  · rw [if_neg bracket] at h
    cases h

/-- If an array is read, each of its elements is taken. -/
theorem accepts_of_readArray {values : List Bytes} {s : Bytes} (array : ArrayOf Eq values s)
    (each : ∀ v ∈ values, Value v) (accepts : Accepts (readArray item) s) :
    ∀ v ∈ values, Accepts item v := by
  obtain ⟨blanks, rest, ⟨xs, r⟩, blank, -, h⟩ := accepts
  obtain ⟨items⟩ := array
  rw [List.cons_append] at h
  simp only [readArray, skipBlank_append blank (show isBlank 0x5b = false by decide), if_true] at h
  exact (readArrayItems_ok stops items each h).2

end

/-! ## Records -/

variable {δ : Type}

/-- A record type whose fields have different names, are set by reading them and nothing else, and take
exactly their values. -/
structure Lawful (shape : Shape δ) : Prop where
  distinct : (shape.fields.map Field.name).Nodup
  empty : ∀ field ∈ shape.fields, field.isSet shape.empty = false
  sets : ∀ field ∈ shape.fields, ∀ {record s record' r}, field.read record s = .ok (record', r) →
    ∀ other ∈ shape.fields, other.isSet record' = (decide (other.name = field.name) || other.isSet record)
  stops : ∀ field ∈ shape.fields, ∀ record, Exact (field.read record)

theorem Spells.body {chars : List Char} {s : Bytes} (spells : Spells chars s) : Body s := by
  induction spells with
  | nil => exact .nil
  | @plain c chars s quote backslash control more ih =>
    have plain := plain_of_mem_utf8EncodeChar quote backslash (Nat.not_lt.mpr control)
    generalize String.utf8EncodeChar c = bytes at plain
    induction bytes with
    | nil => exact ih
    | cons b bytes ih' =>
      obtain ⟨hquote, hbackslash, hcontrol⟩ := plain b List.mem_cons_self
      exact .plain hquote hbackslash (UInt8.not_lt.mp hcontrol)
        (ih' fun d hd => plain d (List.mem_cons_of_mem b hd))
  | letter listed more ih => exact .letter listed ih
  | hex hdigits more ih => exact .hex hdigits ih
  | pair past hhigh hlow more ih =>
    have hbody := Body.hex hhigh (Body.hex hlow ih)
    exact hbody

namespace Lawful

variable {shape : Shape δ} (lawful : Lawful shape)

include lawful

/-- If a run over the members of an object succeeds at a member, it goes on after it, and a known member is
taken by its field, which was not set before. -/
theorem readMembers_step {first : Bool} {record : δ} {inner value text gap lead rest : Bytes} {fuel : Nat}
    {out : δ × Bytes} (member : Member (0x22 :: (inner ++ [0x22]), value) text) (body : Body inner)
    (hvalue : Value value) (hgap : Gap gap) (hlead : Gap lead) (ends : Ends rest)
    (h : shape.readMembers fuel first record (gap ++ (separator first ++ (lead ++ (text ++ rest)))) =
      .ok out) :
    ∃ fuel' name record', shape.readMembers fuel' false record' rest = .ok out ∧
      (∀ written : String, Spells written.toList inner → written = name) ∧
      (shape.fields.find? (·.name = name) = none ∧ record' = record ∨
        ∃ field blanks, shape.fields.find? (·.name = name) = some field ∧ field.isSet record = false ∧
          Blanks blanks ∧ field.read record (blanks ++ (value ++ rest)) = .ok (record', rest)) := by
  cases fuel with
  | zero => cases h
  | succ fuel =>
    obtain ⟨after, s, hafter, hnext, hcolon⟩ := member.steps hgap hlead first rest
    rw [Shape.readMembers, hnext] at h
    obtain ⟨_, hsome, hname⟩ := bind_eq_ok.mp h
    obtain rfl := Except.ok.inj hsome
    obtain ⟨⟨name, t⟩, hname, hfind⟩ := bind_eq_ok.mp hname
    obtain rfl : t = s := readString_body_ok body hname
    have hwritten : ∀ written : String, Spells written.toList inner → written = name := by
      intro written spells
      exact (Prod.mk.inj (Except.ok.inj ((readString_spells spells t).symm.trans hname))).1
    simp only at hfind
    split at hfind
    · next find =>
      simp only [hcolon, takes_skipAny hvalue after rest hafter.blanks ends, bind, Except.bind] at hfind
      exact ⟨fuel, name, record, hfind, hwritten, Or.inl ⟨find, rfl⟩⟩
    · next field find =>
      by_cases set : field.isSet record = true
      · rw [if_pos set] at hfind
        cases hfind
      · simp only [if_neg set, hcolon] at hfind
        obtain ⟨⟨_, _⟩, hpassed, hvalueRead⟩ := bind_eq_ok.mp hfind
        obtain ⟨-, rfl⟩ := Prod.mk.inj (Except.ok.inj hpassed)
        obtain ⟨⟨record', v⟩, hread, hmore⟩ := bind_eq_ok.mp hvalueRead
        have hfield := List.mem_of_find?_eq_some find
        obtain rfl : v = rest := lawful.stops field hfield record hvalue hafter.blanks ends hread
        exact ⟨fuel, name, record', hmore, hwritten, Or.inr ⟨field, after, find, by simpa using set,
          hafter.blanks, hread⟩⟩

omit lawful in
/-- An object is only left when nothing is missing, and then after its closing brace. -/
theorem readMembers_close {first : Bool} {record final : δ} {gap rest r : Bytes} {fuel : Nat}
    (hgap : Gap gap)
    (h : shape.readMembers fuel first record (gap ++ 0x7d :: rest) = .ok (final, r)) :
    r = rest ∧ ∀ field ∈ shape.fields, field.isSet record = true := by
  cases fuel with
  | zero => cases h
  | succ fuel =>
    rw [Shape.readMembers, nextMember_close hgap.blanks] at h
    obtain ⟨_, hnone, hfind⟩ := bind_eq_ok.mp h
    obtain rfl := Except.ok.inj hnone
    simp only at hfind
    split at hfind
    · cases hfind
    · next find =>
      obtain ⟨-, rfl⟩ := Prod.mk.inj (Except.ok.inj hfind)
      refine ⟨pastClose_append hgap.blanks (by decide) rest, ?_⟩
      intro field hfield
      simpa using List.find?_eq_none.mp find field hfield

theorem readMembers_exact {first : Bool} {members : List (Bytes × Bytes)} {s : Bytes}
    (items : Items Member 0x7d first members s) (each : ∀ m ∈ members, Quoted m.1 ∧ Value m.2)
    {rest : Bytes} :
    ∀ {fuel : Nat} {record final : δ} {r : Bytes},
      shape.readMembers fuel first record (s ++ rest) = .ok (final, r) → r = rest := by
  induction items with
  | @done first gap hgap =>
    intro fuel record final r h
    rw [List.append_assoc, List.singleton_append] at h
    exact (readMembers_close hgap h).1
  | @item first m members gap lead text more hgap hlead member hmore ih =>
    intro fuel record final r h
    obtain ⟨name, value⟩ := m
    obtain ⟨⟨body⟩, hvalue⟩ := each _ List.mem_cons_self
    simp only [List.append_assoc] at h
    obtain ⟨_, _, _, h, -, -⟩ :=
      lawful.readMembers_step member body hvalue hgap hlead (hmore.ends (Or.inr rfl) rest) h
    exact ih (fun m hm => each m (List.mem_cons_of_mem _ hm)) h

/-- A run over the members of an object that succeeds has met each field that was not set before once, and
none that was, and each known member was taken. -/
theorem readMembers_once {first : Bool} {members : List (String × Bytes)} {s : Bytes}
    (items : Items Named 0x7d first members s) (each : ∀ m ∈ members, Value m.2) {rest : Bytes} :
    ∀ {fuel : Nat} {record : δ} {out : δ × Bytes},
      shape.readMembers fuel first record (s ++ rest) = .ok out →
      ∀ field ∈ shape.fields,
        (members.map Prod.fst).count field.name + (field.isSet record).toNat = 1 ∧
        ∀ m ∈ members, m.1 = field.name → ∃ record, Accepts (field.read record) m.2 := by
  induction items with
  | @done first gap hgap =>
    intro fuel record out h field hfield
    rw [List.append_assoc, List.singleton_append] at h
    rw [(readMembers_close hgap h).2 field hfield]
    exact ⟨rfl, fun m hm => absurd hm List.not_mem_nil⟩
  | @item first m members gap lead text more hgap hlead named hmore ih =>
    intro fuel record out h field hfield
    obtain @⟨written, _, value, _, ⟨spells⟩, member⟩ := named
    have ends := hmore.ends (Or.inr rfl) rest
    simp only [List.append_assoc] at h
    obtain ⟨fuel', name, record', hmore', hname, hfound⟩ := lawful.readMembers_step member spells.body
      (each _ List.mem_cons_self) hgap hlead ends h
    obtain rfl := hname written spells
    obtain ⟨once, accepts⟩ := ih (fun m hm => each m (List.mem_cons_of_mem _ hm)) hmore' field hfield
    rw [List.map_cons, List.count_cons]
    rcases hfound with ⟨find, rfl⟩ | ⟨found, blanks, find, unset, blank, hread⟩
    · -- another member
      have differs : written ≠ field.name := by
        have := List.find?_eq_none.mp find field hfield
        simpa [eq_comm] using this
      refine ⟨by simpa [differs] using once, ?_⟩
      intro m hm same
      obtain rfl | hm := List.mem_cons.mp hm
      · exact absurd same differs
      · exact accepts m hm same
    · have hfound := List.mem_of_find?_eq_some find
      have hsame : found.name = written := by simpa using List.find?_some find
      have hset := lawful.sets found hfound hread field hfield
      by_cases same : field.name = written
      · -- the member of this field, which is set after it
        obtain rfl : field = found :=
          List.inj_on_of_nodup_map lawful.distinct hfield hfound (same.trans hsame.symm)
        rw [hset, decide_eq_true rfl, Bool.true_or] at once
        refine ⟨by simpa [same, unset] using once, ?_⟩
        intro m hm hm'
        obtain rfl | hm := List.mem_cons.mp hm
        · exact ⟨record, blanks, _, _, blank, ends, hread⟩
        · exact accepts m hm hm'
      · rw [hset, decide_eq_false (by rw [hsame]; exact same), Bool.false_or] at once
        refine ⟨by simpa [Ne.symm same] using once, ?_⟩
        intro m hm hm'
        obtain rfl | hm := List.mem_cons.mp hm
        · exact absurd hm'.symm same
        · exact accepts m hm hm'

omit lawful in
theorem skipBlank_of_closeArray {s r : Bytes} {x : Unit} (h : closeArray s = .ok (x, r)) :
    skipBlank s = 0x5d :: r := by
  unfold closeArray at h
  split at h
  · cases h
  · next b rest hskip =>
    split at h
    · next close =>
      obtain ⟨-, rfl⟩ := Prod.mk.inj (Except.ok.inj h)
      rw [hskip, close]
    split at h
    · split at h <;> cases h
    · cases h

omit lawful in
/-- An array with no more elements wanted is only left where it has no more. -/
theorem closeArray_items {first : Bool} {values : List Bytes} {s rest r : Bytes} {x : Unit}
    (items : Items Eq 0x5d first values s) (each : ∀ v ∈ values, Value v)
    (h : closeArray (s ++ rest) = .ok (x, r)) : r = rest := by
  have hskip := skipBlank_of_closeArray h
  cases items with
  | @done _ gap hgap =>
    rw [List.append_assoc, List.singleton_append, skipBlank_append hgap.blanks (by decide)] at hskip
    exact (List.cons.inj hskip).2.symm
  | @item _ x values gap lead text more hgap hlead htext hmore =>
    -- there is another element, or a comma before it
    subst htext
    obtain ⟨b, others, rfl, solid, notClose⟩ := (each x List.mem_cons_self).begins
    rw [List.append_assoc, skipBlank_blanks hgap.blanks] at hskip
    cases first with
    | true =>
      simp only [separator, if_true, List.nil_append, List.append_assoc, List.cons_append] at hskip
      rw [skipBlank_append hlead.blanks solid] at hskip
      exact absurd (List.cons.inj hskip).1 notClose
    | false => exact absurd (List.cons.inj hskip).1 (by decide)

/-- The fields are read from an array up to its end, if they are read at all. -/
theorem readElements_exact {rest : Bytes} (fields : List (Field δ)) (known : ∀ f ∈ fields, f ∈ shape.fields) :
    ∀ {index : Nat} {first : Bool} {values : List Bytes} {s : Bytes} {record final : δ} {r : Bytes},
      Items Eq 0x5d first values s → first = decide (index = 0) → (∀ v ∈ values, Value v) →
      shape.readElements index fields record (s ++ rest) = .ok (final, r) → r = rest := by
  induction fields with
  | nil =>
    intro index first values s record final r items hfirst each h
    rw [Shape.readElements] at h
    obtain ⟨⟨_, t⟩, hclose, h⟩ := bind_eq_ok.mp h
    obtain ⟨-, rfl⟩ := Prod.mk.inj (Except.ok.inj h)
    exact closeArray_items items each hclose
  | cons field fields ih =>
    intro index first values s record final r items hfirst each h
    rw [Shape.readElements, ← hfirst] at h
    obtain ⟨place, hnext, h⟩ := bind_eq_ok.mp h
    cases items with
    | @done _ gap hgap =>
      rw [List.append_assoc, List.singleton_append, nextElement_close hgap.blanks] at hnext
      obtain rfl := Except.ok.inj hnext
      cases h
    | @item _ x values gap lead text more hgap hlead htext hmore =>
      subst htext
      have value := each x List.mem_cons_self
      simp only [List.append_assoc] at hnext
      rw [nextElement_item hgap hlead value.begins] at hnext
      obtain rfl := Except.ok.inj hnext
      obtain ⟨⟨record', t⟩, hread, h⟩ := bind_eq_ok.mp h
      obtain rfl : t = more ++ rest := (lawful.stops field (known field List.mem_cons_self) record).of_cons
        value (hmore.ends (Or.inl rfl) rest) hread
      exact ih (fun f hf => known f (List.mem_cons_of_mem field hf)) hmore (by simp)
        (fun v hv => each v (List.mem_cons_of_mem _ hv)) h

theorem exact_read : Exact shape.read := by
  intro s blanks rest x r value blank ends h
  obtain ⟨b, more, rfl, solid, -⟩ := value.begins
  rw [List.cons_append] at h
  simp only [Shape.read, skipBlank_append blank solid] at h
  by_cases brace : b = 0x7b
  · subst brace
    obtain ⟨members, items, each⟩ := value.members
    rw [if_pos rfl] at h
    exact lawful.readMembers_exact items each h
  rw [if_neg brace] at h
  by_cases bracket : b = 0x5b
  · subst bracket
    obtain ⟨values, items, each⟩ := value.items
    rw [if_pos rfl] at h
    exact lawful.readElements_exact shape.fields (fun _ hf => hf) items rfl each h
  · rw [if_neg bracket] at h
    cases h

/-- A record is only taken from an object that names each field once, and only if the value of each field is
taken. -/
theorem once_of_accepts {members : List (String × Bytes)} {s : Bytes} (object : ObjectOf members s)
    (each : ∀ m ∈ members, Value m.2) (accepts : Accepts shape.read s) :
    ∀ field ∈ shape.fields, (members.map Prod.fst).count field.name = 1 ∧
      ∀ m ∈ members, m.1 = field.name → ∃ record, Accepts (field.read record) m.2 := by
  obtain ⟨blanks, rest, out, blank, -, h⟩ := accepts
  obtain ⟨items⟩ := object
  rw [List.cons_append] at h
  simp only [Shape.read, skipBlank_append blank (show isBlank 0x7b = false by decide), if_true] at h
  intro field hfield
  obtain ⟨once, taken⟩ := lawful.readMembers_once items each h field hfield
  rw [lawful.empty field hfield] at once
  exact ⟨once, taken⟩

end Lawful

end BenchHarness.Json
