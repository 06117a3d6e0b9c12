import BenchHarness.Json.Record
import BenchHarness.Json.Layout
import BenchHarness.Proofs.Utf8

/-!
# Strings and numbers in JSON

A quoted string is scanned back to the text it was made from (`Json.readString_quote`), and the digits
of a number to the number (`Json.scanNumber_digits`).
-/

namespace BenchHarness.Json

/-! ## Strings -/

/-- The bytes of a text between its quotes. -/
def body (chars : List Char) : Bytes := (chars.flatMap escape).flatMap String.utf8EncodeChar

/-- Scanning gives some bytes and the rest, with any fuel that is enough to pass every byte. -/
def Scans (s bytes rest : Bytes) : Prop := ∀ fuel, s.length < fuel → scanString fuel s = .ok (bytes, rest)

namespace Scans

variable {s bytes rest : Bytes}

theorem close (rest : Bytes) : Scans (0x22 :: rest) [] rest := by
  intro fuel enough
  cases fuel with
  | zero => omega
  | succ fuel => rw [scanString, if_pos rfl]

/-- A byte that stands for itself. -/
theorem plain {b : UInt8} (scans : Scans s bytes rest) (quote : b ≠ 0x22) (backslash : b ≠ 0x5c)
    (control : ¬ b < 0x20) : Scans (b :: s) (b :: bytes) rest := by
  intro fuel enough
  cases fuel with
  | zero => omega
  | succ fuel =>
    rw [List.length_cons] at enough
    rw [scanString, if_neg quote, if_neg backslash, if_neg control, scans fuel (by omega)]
    rfl

theorem plainAll {piece : Bytes} (scans : Scans s bytes rest)
    (plain : ∀ b ∈ piece, b ≠ 0x22 ∧ b ≠ 0x5c ∧ ¬ b < 0x20) :
    Scans (piece ++ s) (piece ++ bytes) rest := by
  induction piece with
  | nil => exact scans
  | cons b piece ih =>
    obtain ⟨quote, backslash, control⟩ := plain b List.mem_cons_self
    exact (ih fun c hc => plain c (List.mem_cons_of_mem b hc)).plain quote backslash control

/-- An escape stands for some bytes. -/
theorem escaped {escape meant : Bytes} (scans : Scans s bytes rest)
    (h : scanEscape (escape ++ s) = .ok (meant, s)) :
    Scans (0x5c :: (escape ++ s)) (meant ++ bytes) rest := by
  intro fuel enough
  cases fuel with
  | zero => omega
  | succ fuel =>
    rw [List.length_cons, List.length_append] at enough
    rw [scanString, if_neg (by decide), if_pos rfl, h]
    simp only [bind, Except.bind, scans fuel (by omega)]
    rfl

end Scans

theorem hexDigit_spec : ∀ n < 16, (hexDigit n).val.toNat < 0x80 ∧
    hexValue? (Utf8.asciiByte (hexDigit n)) = some n := by decide

theorem scanHex_hexDigit {m n : Nat} (hm : m < 16) (hn : n < 16) (s : Bytes) :
    scanHex (0x30 :: 0x30 :: Utf8.asciiByte (hexDigit m) :: Utf8.asciiByte (hexDigit n) :: s) =
      .ok (m * 16 + n, s) := by
  have hzero : hexValue? 0x30 = some 0 := by decide
  rw [scanHex, hzero, (hexDigit_spec m hm).2, (hexDigit_spec n hn).2]
  simp only [Nat.zero_mul, Nat.zero_add]

theorem plain_of_mem_utf8EncodeChar {c : Char} (quote : c ≠ '\x22') (backslash : c ≠ '\\')
    (control : ¬ c.toNat < 0x20) :
    ∀ b ∈ String.utf8EncodeChar c, b ≠ 0x22 ∧ b ≠ 0x5c ∧ ¬ b < 0x20 := by
  intro b hb
  have hquote : Utf8.asciiByte '\x22' = 0x22 := rfl
  have hbackslash : Utf8.asciiByte '\\' = 0x5c := rfl
  refine ⟨?_, ?_, ?_⟩
  · rintro rfl
    exact quote (Utf8.asciiByte_mem_utf8EncodeChar (by decide) (hquote ▸ hb)).symm
  · rintro rfl
    exact backslash (Utf8.asciiByte_mem_utf8EncodeChar (by decide) (hbackslash ▸ hb)).symm
  · simp only [UInt8.lt_iff_toNat_lt, UInt8.reduceToNat]
    by_cases ascii : c.val.toNat < 0x80
    · rw [Utf8.utf8EncodeChar_of_ascii ascii, List.mem_singleton] at hb
      rw [hb, Utf8.asciiByte_toNat ascii]
      exact control
    · have := Utf8.le_of_mem_utf8EncodeChar (Nat.le_of_not_lt ascii) hb
      omega

/-- A character is scanned to its bytes, however it is written. -/
theorem Scans.char {s bytes rest : Bytes} (scans : Scans s bytes rest) (c : Char) :
    Scans ((escape c).flatMap String.utf8EncodeChar ++ s) (String.utf8EncodeChar c ++ bytes) rest := by
  have letter : ∀ b meant, scanEscape (b :: s) = .ok (meant, s) →
      Scans (0x5c :: b :: s) (meant ++ bytes) rest :=
    fun b meant h => @escaped s bytes rest [b] meant scans h
  -- the escapes of one letter in the order in which they are tried, then the hexadecimal ones
  unfold escape
  split
  · next h =>
    subst h
    exact letter 0x22 [0x22] rfl
  split
  · next h =>
    subst h
    exact letter 0x5c [0x5c] rfl
  split
  · next h =>
    subst h
    exact letter 0x62 [0x08] rfl
  split
  · next h =>
    subst h
    exact letter 0x74 [0x09] rfl
  split
  · next h =>
    subst h
    exact letter 0x6e [0x0a] rfl
  split
  · next h =>
    subst h
    exact letter 0x66 [0x0c] rfl
  split
  · next h =>
    subst h
    exact letter 0x72 [0x0d] rfl
  split
  · next control =>
    have hbytes : (['\\', 'u', '0', '0', hexDigit (c.toNat / 16), hexDigit (c.toNat % 16)]).flatMap
        String.utf8EncodeChar ++ s = 0x5c :: ([0x75, 0x30, 0x30,
          Utf8.asciiByte (hexDigit (c.toNat / 16)), Utf8.asciiByte (hexDigit (c.toNat % 16))] ++ s) := by
      have h₁ := Utf8.utf8EncodeChar_of_ascii (hexDigit_spec (c.toNat / 16) (by omega)).1
      have h₂ := Utf8.utf8EncodeChar_of_ascii (hexDigit_spec (c.toNat % 16) (by omega)).1
      simp only [List.flatMap_cons, List.flatMap_nil, h₁, h₂]
      rfl
    have hvalue : c.toNat / 16 * 16 + c.toNat % 16 = c.toNat := by omega
    have hescape : scanEscape ([0x75, 0x30, 0x30, Utf8.asciiByte (hexDigit (c.toNat / 16)),
        Utf8.asciiByte (hexDigit (c.toNat % 16))] ++ s) = .ok (String.utf8EncodeChar c, s) := by
      have hletter : escapeByte? 0x75 = none := by decide
      rw [List.cons_append, scanEscape, hletter]
      simp only [List.cons_append, List.nil_append, ne_eq, not_true_eq_false, if_false,
        scanHex_hexDigit (show c.toNat / 16 < 16 by omega) (show c.toNat % 16 < 16 by omega),
        hvalue, bind, Except.bind]
      rw [if_neg (by omega)]
      simp only [pure, Except.pure]
      rw [if_neg (by omega), codePoint, Char.ofNat_toNat]
    rw [hbytes]
    exact scans.escaped hescape
  · next quote backslash _ _ _ _ _ control =>
    rw [List.flatMap_singleton]
    exact scans.plainAll (plain_of_mem_utf8EncodeChar quote backslash control)

theorem scans_body (chars : List Char) (rest : Bytes) :
    Scans (body chars ++ 0x22 :: rest) (chars.flatMap String.utf8EncodeChar) rest := by
  induction chars with
  | nil => exact .close rest
  | cons c chars ih =>
    have hbody : body (c :: chars) ++ 0x22 :: rest =
        (escape c).flatMap String.utf8EncodeChar ++ (body chars ++ 0x22 :: rest) := by
      simp [body]
    rw [hbody, List.flatMap_cons]
    exact ih.char c

theorem encode_quote (s : String) :
    Utf8.encode (quote s) = 0x22 :: (body s.toList ++ [0x22]) := by
  rw [Utf8.encode, quote, String.toList_ofList, List.flatMap_cons, List.flatMap_append]
  rfl

/-- A quoted text is read back. -/
theorem readString_body (s : String) (rest : Bytes) :
    readString (body s.toList ++ 0x22 :: rest) = .ok (s, rest) := by
  have hbytes := Utf8.decodeLossy_encode s
  rw [readString, scans_body s.toList rest _ (Nat.lt_succ_self _)]
  rw [Utf8.encode] at hbytes
  simp only [bind, Except.bind, pure, Except.pure, hbytes]

/-! ## Numbers -/

/-- What may stand after a value: a comma, a closing bracket or brace, a blank, or nothing. -/
def Ends (rest : Bytes) : Prop :=
  ∀ b ∈ rest.head?, b = 0x2c ∨ b = 0x5d ∨ b = 0x7d ∨ isBlank b = true

/-- No number goes on where a value ends. -/
theorem Ends.stops {b : UInt8} {rest : Bytes} (ends : Ends (b :: rest)) :
    isDigit b = false ∧ b ≠ 0x2e ∧ isExponentMark b = false := by
  rcases ends b rfl with rfl | rfl | rfl | blank
  · decide
  · decide
  · decide
  · simp only [isBlank, Bool.or_eq_true, decide_eq_true_eq] at blank
    rcases blank with ((rfl | rfl) | rfl) | rfl <;> decide

/-- The number that some digits make after others. -/
def appended (n : Nat) (digits : Bytes) : Nat := digits.foldl (fun n d => n * 10 + digitValue d) n

theorem le_appended (digits : Bytes) : ∀ n, n ≤ appended n digits := by
  induction digits with
  | nil => exact Nat.le_refl
  | cons d digits ih =>
    intro n
    calc n ≤ n * 10 + digitValue d := by omega
      _ ≤ appended (n * 10 + digitValue d) digits := ih _

/-- The digits of a number: there is a first one, and it is a zero only if it is the only one. -/
structure Decimal (n : Nat) (first : UInt8) (more : Bytes) : Prop where
  digit : isDigit first = true
  digits : ∀ d ∈ more, isDigit d = true
  value : appended (digitValue first) more = n
  short : first = 0x30 → more = []

theorem digit_spec : ∀ d < 10, String.utf8EncodeChar d.digitChar = [UInt8.ofNat (0x30 + d)] ∧
    isDigit (UInt8.ofNat (0x30 + d)) = true ∧ digitValue (UInt8.ofNat (0x30 + d)) = d := by decide

theorem encode_toString (n : Nat) :
    Utf8.encode (toString n) = (Nat.toDigits 10 n).flatMap String.utf8EncodeChar := by
  rw [Utf8.encode, show toString n = String.ofList (Nat.toDigits 10 n) from rfl,
    String.toList_ofList]

/-- A number is written in its digits. -/
theorem exists_decimal (n : Nat) :
    ∃ first more, Utf8.encode (toString n) = first :: more ∧ Decimal n first more := by
  induction n using Nat.strongRecOn with
  | ind n ih =>
    rw [encode_toString]
    by_cases small : n < 10
    · obtain ⟨hbytes, hdigit, hvalue⟩ := digit_spec n small
      refine ⟨UInt8.ofNat (0x30 + n), [], ?_, hdigit, ?_, hvalue, fun _ => rfl⟩
      · rw [Nat.toDigits_of_lt_base small, List.flatMap_singleton, hbytes]
      · simp
    · obtain ⟨first, more, htext, decimal⟩ := ih (n / 10) (by omega)
      rw [encode_toString] at htext
      obtain ⟨hbytes, hdigit, hvalue⟩ := digit_spec (n % 10) (by omega)
      refine ⟨first, more ++ [UInt8.ofNat (0x30 + n % 10)], ?_, decimal.digit, ?_, ?_, ?_⟩
      · rw [Nat.toDigits_of_base_le (by decide) (by omega), List.flatMap_append, htext,
          List.flatMap_singleton, hbytes]
        rfl
      · intro d hd
        rcases List.mem_append.mp hd with hd | hd
        · exact decimal.digits d hd
        · rw [List.mem_singleton.mp hd]
          exact hdigit
      · have hvalue' := decimal.value
        unfold appended at hvalue' ⊢
        rw [List.foldl_append, hvalue', List.foldl_cons, List.foldl_nil, hvalue]
        omega
      · -- only the number zero starts with a zero, and there is a digit before the last one
        intro zero
        have hvalue' := decimal.value
        rw [decimal.short zero, zero] at hvalue'
        have hzero : appended (digitValue 0x30) [] = 0 := by decide
        omega

/-- Digits are taken up to the end of the number, if it fits. -/
theorem takeDigits_append {rest : Bytes} (ends : Ends rest) (digits : Bytes) :
    ∀ n taken, (∀ d ∈ digits, isDigit d = true) → appended n digits ≤ maxWord →
      takeDigits n taken (digits ++ rest) = (appended n digits, taken + digits.length, rest) := by
  induction digits with
  | nil =>
    intro n taken _ _
    cases rest with
    | nil => rfl
    | cons b rest =>
      obtain ⟨notDigit, -, -⟩ := ends.stops
      rw [List.nil_append, takeDigits, if_neg (by simp [notDigit])]
      rfl
  | cons d digits ih =>
    intro n taken allDigits fits
    have hd := allDigits d List.mem_cons_self
    -- more digits only make the number larger, so it fits up to here if it does as a whole
    have hle : n * 10 + digitValue d ≤ maxWord := Nat.le_trans (le_appended digits _) fits
    rw [List.cons_append, takeDigits, if_pos ⟨hd, hle⟩,
      ih _ _ (fun c hc => allDigits c (List.mem_cons_of_mem d hc)) fits, List.length_cons,
      Nat.add_assoc, Nat.add_comm 1]
    rfl

theorem scanFraction_ends {rest : Bytes} (ends : Ends rest) (n : Nat) :
    scanFraction false n rest = .ok (.natural n, rest) := by
  cases rest with
  | nil => rfl
  | cons b rest =>
    obtain ⟨-, notPoint, notMark⟩ := ends.stops
    simp [scanFraction, notPoint, notMark]

/-- The digits of a number are scanned to it, if it fits 64 bits. -/
theorem scanNumber_digits {n : Nat} {first : UInt8} {more rest : Bytes}
    (decimal : Decimal n first more) (fits : n ≤ maxWord) (ends : Ends rest) :
    scanNumber false (first :: (more ++ rest)) = .ok (.natural n, rest) := by
  have hfraction := scanFraction_ends ends n
  by_cases zero : first = 0x30
  · have hn : n = 0 := by
      rw [← decimal.value, decimal.short zero, zero]
      decide
    subst hn
    unfold scanNumber
    rw [decimal.short zero, List.nil_append]
    simp only [if_pos zero]
    cases rest with
    | nil => exact hfraction
    | cons b rest => simp only [ends.stops.1, hfraction, Bool.false_eq_true, if_false]
  · have htake := takeDigits_append ends more (digitValue first) 0 decimal.digits
      (by rw [decimal.value]; exact fits)
    unfold scanNumber
    simp only [if_neg zero, if_pos decimal.digit, htake, decimal.value]
    cases rest with
    | nil => exact hfraction
    | cons b rest => simp only [ends.stops.1, hfraction, Bool.false_eq_true, if_false]

end BenchHarness.Json
