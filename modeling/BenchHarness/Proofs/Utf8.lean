import BenchHarness.Text.Utf8
import Mathlib.Tactic.Basic

/-!
# Encoded and decoded text

What the other modules need about `Utf8.encode` and `Utf8.decode?`.

* bytes below 0x80 stand for themselves: an ASCII character occurs in an encoded text exactly where
  it occurs in the text (`mem_encode_iff`, `getLast?_encode_eq_iff`);
* an ASCII byte divides what is decoded: nothing before it can reach over it
  (`decodeFrom_append_ascii`);
* bytes that decode to a text are its encoding (`encode_of_decode?_eq_some`), so no two byte runs
  decode to one text;
* the encoding of a text decodes to it (`decode_encode`).
-/

namespace BenchHarness.Utf8

/-! ## Bytes of single characters -/

/-- The byte of an ASCII character. -/
def asciiByte (c : Char) : UInt8 := UInt8.ofNat c.val.toNat

theorem utf8EncodeChar_of_ascii {c : Char} (ascii : c.val.toNat < 0x80) :
    String.utf8EncodeChar c = [asciiByte c] := by
  rw [String.utf8EncodeChar, if_pos (by omega)]
  rfl

/-- All bytes of a character that is not ASCII have the high bit set. -/
theorem le_of_mem_utf8EncodeChar {c : Char} (wide : 0x80 ≤ c.val.toNat) {b : UInt8}
    (member : b ∈ String.utf8EncodeChar c) : 0x80 ≤ b.toNat := by
  have hb : ∀ n, b = UInt8.ofNat n → n % 256 = b.toNat := by
    rintro n rfl
    simp
  simp only [String.utf8EncodeChar] at member
  rw [if_neg (by omega)] at member
  split at member
  · simp only [List.mem_cons, List.not_mem_nil, or_false] at member
    rcases member with h | h <;> (have hbyte := hb _ h; omega)
  · split at member
    · simp only [List.mem_cons, List.not_mem_nil, or_false] at member
      rcases member with h | h | h <;> (have hbyte := hb _ h; omega)
    · simp only [List.mem_cons, List.not_mem_nil, or_false] at member
      rcases member with h | h | h | h <;> (have hbyte := hb _ h; omega)

theorem asciiByte_toNat {c : Char} (ascii : c.val.toNat < 0x80) :
    (asciiByte c).toNat = c.val.toNat := by
  simp only [asciiByte, UInt8.toNat_ofNat']
  omega

theorem asciiByte_inj {c d : Char} (hc : c.val.toNat < 0x80) (hd : d.val.toNat < 0x80)
    (same : asciiByte c = asciiByte d) : c = d := by
  have h := congrArg UInt8.toNat same
  rw [asciiByte_toNat hc, asciiByte_toNat hd] at h
  exact Char.ext (UInt32.toNat_inj.mp h)

/-- A character's bytes hold the byte of an ASCII character only if it is that character. -/
theorem asciiByte_mem_utf8EncodeChar {c d : Char} (hc : c.val.toNat < 0x80)
    (member : asciiByte c ∈ String.utf8EncodeChar d) : c = d := by
  by_cases hd : d.val.toNat < 0x80
  · rw [utf8EncodeChar_of_ascii hd, List.mem_singleton] at member
    exact asciiByte_inj hc hd member
  · have := le_of_mem_utf8EncodeChar (Nat.le_of_not_lt hd) member
    rw [asciiByte_toNat hc] at this
    omega

/-! ## Encoded texts -/

@[simp] theorem encode_empty : encode "" = [] := by
  simp [encode]

@[simp] theorem encode_append (s t : String) : encode (s ++ t) = encode s ++ encode t := by
  simp [encode]

theorem encode_eq_nil_iff (s : String) : encode s = [] ↔ s = "" := by
  constructor
  · intro h
    simp only [encode, List.flatMap_eq_nil_iff] at h
    rw [← String.toList_inj, String.toList_empty, List.eq_nil_iff_forall_not_mem]
    intro c hc
    exact String.utf8EncodeChar_ne_nil (h c hc)
  · rintro rfl
    exact encode_empty

/-- An ASCII character occurs in an encoded text exactly if it occurs in the text. -/
theorem mem_encode_iff {c : Char} (ascii : c.val.toNat < 0x80) (s : String) :
    asciiByte c ∈ encode s ↔ c ∈ s.toList := by
  simp only [encode, List.mem_flatMap]
  constructor
  · rintro ⟨d, hd, member⟩
    exact asciiByte_mem_utf8EncodeChar ascii member ▸ hd
  · intro hc
    exact ⟨c, hc, by simp [utf8EncodeChar_of_ascii ascii]⟩

/-- An encoded text ends with an ASCII character exactly if the text does. -/
theorem getLast?_encode_eq_iff {c : Char} (ascii : c.val.toNat < 0x80) (s : String) :
    (encode s).getLast? = some (asciiByte c) ↔ s.toList.getLast? = some c := by
  rw [encode]
  rcases s.toList.eq_nil_or_concat with h | ⟨init, d, h⟩
  · simp [h]
  · rw [h, List.concat_eq_append, List.flatMap_append, List.flatMap_singleton,
      List.getLast?_append, List.getLast?_concat]
    have hsome : (String.utf8EncodeChar d).getLast?.isSome := by
      rw [List.getLast?_isSome]
      exact String.utf8EncodeChar_ne_nil
    rw [Option.or_of_isSome hsome]
    constructor
    · intro hlast
      rw [asciiByte_mem_utf8EncodeChar ascii (List.mem_of_getLast? hlast)]
    · intro hd
      rw [Option.some.inj hd, utf8EncodeChar_of_ascii ascii]
      rfl

/-- An encoded text starts with an ASCII character exactly if the text does. -/
theorem head?_encode_eq_iff {c : Char} (ascii : c.val.toNat < 0x80) (s : String) :
    (encode s).head? = some (asciiByte c) ↔ s.toList.head? = some c := by
  rw [encode]
  cases h : s.toList with
  | nil => simp
  | cons d rest =>
    obtain ⟨b, bytes, hbytes⟩ := List.exists_cons_of_ne_nil (String.utf8EncodeChar_ne_nil (c := d))
    rw [List.flatMap_cons, hbytes, List.cons_append, List.head?_cons, List.head?_cons]
    constructor
    · intro hhead
      rw [asciiByte_mem_utf8EncodeChar ascii (d := d) (hbytes ▸ Option.some.inj hhead ▸ List.mem_cons_self)]
    · intro hd
      rw [Option.some.inj hd, utf8EncodeChar_of_ascii ascii] at hbytes
      rw [(List.cons.inj hbytes).1]

/-! ## Characters given by their bytes -/

theorem val_ofNat {n : Nat} (valid : n.isValidChar) : (Char.ofNat n).val.toNat = n := by
  rw [Char.ofNat, dif_pos valid]
  rfl

/-- The next byte of a character lies in a range that keeps the character valid. -/
theorem utf8EncodeChar_two {a b : UInt8} (low : 0xc2 ≤ a.toNat) (high : a.toNat < 0xe0)
    (hb : 0x80 ≤ b.toNat) (hb' : b.toNat ≤ 0xbf) :
    String.utf8EncodeChar (Char.ofNat ((a.toNat - 0xc0) * 64 + (b.toNat - 0x80))) = [a, b] := by
  have valid : ((a.toNat - 0xc0) * 64 + (b.toNat - 0x80)).isValidChar := Or.inl (by omega)
  simp only [String.utf8EncodeChar, val_ofNat valid]
  rw [if_neg (by omega), if_pos (by omega)]
  simp only [List.cons.injEq, ← UInt8.toNat_inj, UInt8.toNat_ofNat', and_true]
  omega

theorem utf8EncodeChar_three {a b c : UInt8} (low : 0xe0 ≤ a.toNat) (high : a.toNat < 0xf0)
    (hb : 0x80 ≤ b.toNat) (hb' : b.toNat ≤ 0xbf) (hc : 0x80 ≤ c.toNat) (hc' : c.toNat ≤ 0xbf)
    (shortest : 0x800 ≤ ((a.toNat - 0xe0) * 64 + (b.toNat - 0x80)) * 64 + (c.toNat - 0x80))
    (valid : (((a.toNat - 0xe0) * 64 + (b.toNat - 0x80)) * 64 + (c.toNat - 0x80)).isValidChar) :
    String.utf8EncodeChar
      (Char.ofNat (((a.toNat - 0xe0) * 64 + (b.toNat - 0x80)) * 64 + (c.toNat - 0x80))) =
      [a, b, c] := by
  simp only [String.utf8EncodeChar, val_ofNat valid]
  rw [if_neg (by omega), if_neg (by omega), if_pos (by omega)]
  simp only [List.cons.injEq, ← UInt8.toNat_inj, UInt8.toNat_ofNat', and_true]
  omega

theorem utf8EncodeChar_four {a b c d : UInt8} (low : 0xf0 ≤ a.toNat) (high : a.toNat ≤ 0xf4)
    (hb : 0x80 ≤ b.toNat) (hb' : b.toNat ≤ 0xbf) (hc : 0x80 ≤ c.toNat) (hc' : c.toNat ≤ 0xbf)
    (hd : 0x80 ≤ d.toNat) (hd' : d.toNat ≤ 0xbf)
    (shortest : 0x10 ≤ (a.toNat - 0xf0) * 64 + (b.toNat - 0x80))
    (valid : (a.toNat - 0xf0) * 64 + (b.toNat - 0x80) < 0x110) :
    String.utf8EncodeChar (Char.ofNat
      ((((a.toNat - 0xf0) * 64 + (b.toNat - 0x80)) * 64 + (c.toNat - 0x80)) * 64 +
        (d.toNat - 0x80))) = [a, b, c, d] := by
  have isValid : ((((a.toNat - 0xf0) * 64 + (b.toNat - 0x80)) * 64 + (c.toNat - 0x80)) * 64 +
      (d.toNat - 0x80)).isValidChar := Or.inr (by omega)
  simp only [String.utf8EncodeChar, val_ofNat isValid]
  rw [if_neg (by omega), if_neg (by omega), if_neg (by omega)]
  simp only [List.cons.injEq, ← UInt8.toNat_inj, UInt8.toNat_ofNat', and_true]
  omega

/-! ## What is being decoded

A character whose first bytes are known is described by what they say about it: whichever allowed
bytes follow, they make a character whose encoding starts with the known ones. -/

/-- The bytes of a character that has been opened, `more` and one continuation bytes still to come. -/
def Opened (known : Bytes) : (more : Nat) → (value : Nat) → (low high : UInt8) → Prop
  | 0, value, low, high => ∀ b, low ≤ b → b ≤ high →
    String.utf8EncodeChar (Char.ofNat (value * 64 + (b.toNat - 0x80))) = known ++ [b]
  | more + 1, value, low, high => ∀ b, low ≤ b → b ≤ high →
    Opened (known ++ [b]) more (value * 64 + (b.toNat - 0x80)) 0x80 0xbf

/-- The first byte of a longer character: how many bytes follow, what the byte adds to the value, and
the bounds of the next one. -/
inductive Opens (b : UInt8) (p : Pending) : Prop
  | two : 0xc2 ≤ b.toNat → b.toNat < 0xe0 → p.more = 0 → p.value = b.toNat - 0xc0 →
      0x80 ≤ p.low.toNat → p.high.toNat ≤ 0xbf → Opens b p
  | three : 0xe0 ≤ b.toNat → b.toNat < 0xf0 → p.more = 1 → p.value = b.toNat - 0xe0 →
      0x80 ≤ p.low.toNat → p.high.toNat ≤ 0xbf → (b.toNat = 0xe0 → 0xa0 ≤ p.low.toNat) →
      (b.toNat = 0xed → p.high.toNat ≤ 0x9f) → Opens b p
  | four : 0xf0 ≤ b.toNat → b.toNat ≤ 0xf4 → p.more = 2 → p.value = b.toNat - 0xf0 →
      0x80 ≤ p.low.toNat → p.high.toNat ≤ 0xbf → (b.toNat = 0xf0 → 0x90 ≤ p.low.toNat) →
      (b.toNat = 0xf4 → p.high.toNat ≤ 0x8f) → Opens b p

theorem opens_of_lead {b : UInt8} {p : Pending} (h : lead b = .opens p) : Opens b p := by
  have hb := b.toNat_lt
  unfold lead at h
  simp only [UInt8.lt_iff_toNat_lt, ← UInt8.toNat_inj] at h
  simp only [UInt8.reduceToNat] at h
  -- the ranges of first bytes one after the other, as they are tried
  split at h
  · cases h
  split at h
  · cases h
  split at h
  · obtain rfl := Lead.opens.inj h
    exact .two (by omega) (by omega) rfl rfl (by simp) (by simp)
  split at h
  · obtain rfl := Lead.opens.inj h
    exact .three (by omega) (by omega) rfl (by simp; omega) (by simp) (by simp)
      (by intro; decide) (by omega)
  split at h
  · obtain rfl := Lead.opens.inj h
    exact .three (by omega) (by omega) rfl (by simp; omega) (by simp) (by simp)
      (by omega) (by intro; decide)
  split at h
  · obtain rfl := Lead.opens.inj h
    exact .three (by omega) (by omega) rfl rfl (by simp) (by simp) (by omega) (by omega)
  split at h
  · obtain rfl := Lead.opens.inj h
    exact .four (by omega) (by omega) rfl (by simp; omega) (by simp) (by simp)
      (by intro; decide) (by omega)
  split at h
  · obtain rfl := Lead.opens.inj h
    exact .four (by omega) (by omega) rfl rfl (by simp) (by simp) (by omega) (by omega)
  split at h
  · obtain rfl := Lead.opens.inj h
    exact .four (by omega) (by omega) rfl (by simp; omega) (by simp) (by simp)
      (by omega) (by intro; decide)
  · cases h

/-- What the first byte of a character says about the rest is true. -/
theorem opened_of_lead {b : UInt8} {p : Pending} (h : lead b = .opens p) :
    Opened [b] p.more p.value p.low p.high := by
  cases opens_of_lead h with
  | two hb hb' hmore hvalue hlow hhigh =>
    rw [hmore, hvalue]
    intro c hc hc'
    rw [UInt8.le_iff_toNat_le] at hc hc'
    exact utf8EncodeChar_two hb hb' (by omega) (by omega)
  | three hb hb' hmore hvalue hlow hhigh hfirst hlast =>
    rw [hmore, hvalue]
    intro c hc hc' d hd hd'
    rw [UInt8.le_iff_toNat_le] at hc hc' hd hd'
    simp only [UInt8.reduceToNat] at hd hd'
    refine utf8EncodeChar_three hb hb' (by omega) (by omega) (by omega) (by omega) (by omega) ?_
    by_cases hsmall : b.toNat ≤ 0xed
    · exact Or.inl (by omega)
    · exact Or.inr (by omega)
  | four hb hb' hmore hvalue hlow hhigh hfirst hlast =>
    rw [hmore, hvalue]
    intro c hc hc' d hd hd' e he he'
    rw [UInt8.le_iff_toNat_le] at hc hc' hd hd' he he'
    simp only [UInt8.reduceToNat] at hd hd' he he'
    exact utf8EncodeChar_four hb hb' (by omega) (by omega) (by omega) (by omega) (by omega)
      (by omega) (by omega) (by omega)

theorem utf8EncodeChar_of_lead {b : UInt8} {c : Char} (h : lead b = .char c) :
    String.utf8EncodeChar c = [b] := by
  unfold lead at h
  split at h
  · rename_i hb
    rw [UInt8.lt_iff_toNat_lt] at hb
    simp only [UInt8.reduceToNat] at hb
    obtain rfl := Lead.char.inj h
    have hval : (Char.ofNat b.toNat).val.toNat = b.toNat := val_ofNat (Or.inl (by omega))
    rw [utf8EncodeChar_of_ascii (by omega), asciiByte, hval, UInt8.ofNat_toNat]
  · repeat' split at h
    all_goals cases h

/-! ## Decoding inverts encoding -/

/-- Characters that bytes decode to encode to these bytes, together with those that were known of
the character being read. -/
theorem flatMap_of_decodeFrom (bytes : Bytes) :
    (∀ cs : List Char, decodeFrom none bytes = cs.map some →
      cs.flatMap String.utf8EncodeChar = bytes) ∧
    (∀ (p : Pending) (known : Bytes), Opened known p.more p.value p.low p.high →
      ∀ cs : List Char, decodeFrom (some p) bytes = cs.map some →
        cs.flatMap String.utf8EncodeChar = known ++ bytes) := by
  induction bytes with
  | nil =>
    refine ⟨?_, ?_⟩
    · intro cs h
      rw [decodeFrom] at h
      rw [List.map_eq_nil_iff.mp h.symm]
      rfl
    · intro p known _ cs h
      cases cs <;> simp [decodeFrom] at h
  | cons b rest ih =>
    obtain ⟨ihStart, ihPending⟩ := ih
    refine ⟨?_, ?_⟩
    · intro cs h
      rw [decodeFrom] at h
      cases hlead : lead b with
      | char c =>
        rw [hlead] at h
        cases cs with
        | nil => simp at h
        | cons d cs =>
          simp only [List.map_cons, List.cons.injEq, Option.some.injEq] at h
          obtain ⟨rfl, h⟩ := h
          rw [List.flatMap_cons, ihStart cs h, utf8EncodeChar_of_lead hlead]
          rfl
      | opens p =>
        rw [hlead] at h
        exact ihPending p [b] (opened_of_lead hlead) cs h
      | invalid =>
        rw [hlead] at h
        cases cs <;> simp at h
    · intro p known opened cs h
      rw [decodeFrom] at h
      by_cases hrange : p.low ≤ b ∧ b ≤ p.high
      · rw [if_pos hrange] at h
        cases hmore : p.more with
        | zero =>
          -- the last byte of a character: decoding starts afresh after it
          rw [hmore] at h opened
          cases cs with
          | nil => exact absurd h (List.cons_ne_nil _ _)
          | cons d cs =>
            have hd : Char.ofNat (p.push b) = d := Option.some.inj (List.cons.inj h).1
            have hbytes : String.utf8EncodeChar d = known ++ [b] := by
              rw [← hd]
              exact opened b hrange.1 hrange.2
            rw [List.flatMap_cons, ihStart cs (List.cons.inj h).2, hbytes]
            simp
        | succ more =>
          -- one more byte of the character is known
          rw [hmore] at h opened
          have := ihPending ⟨p.push b, 0x80, 0xbf, more⟩ (known ++ [b])
            (opened b hrange.1 hrange.2) cs h
          simpa using this
      · rw [if_neg hrange] at h
        cases hlead : lead b <;> rw [hlead] at h <;> cases cs <;> simp at h

/-- Every element of a list is mapped to something exactly if these somethings are the result. -/
theorem mapM_eq_some_iff {α β : Type} (f : α → Option β) (l : List α) (r : List β) :
    l.mapM f = some r ↔ l.map f = r.map some := by
  induction l generalizing r with
  | nil => cases r <;> simp
  | cons a rest ih =>
    rw [List.mapM_cons, List.map_cons]
    cases h : f a with
    | none => cases r <;> simp
    | some b =>
      cases r with
      | nil => simp [Option.bind_eq_some_iff]
      | cons c r =>
        simp only [Option.pure_def, Option.bind_eq_bind, Option.bind_some,
          Option.bind_eq_some_iff, Option.some.injEq, List.cons.injEq, List.map_cons]
        constructor
        · rintro ⟨others, hothers, rfl, rfl⟩
          exact ⟨rfl, (ih _).mp hothers⟩
        · rintro ⟨rfl, hothers⟩
          exact ⟨r, (ih r).mpr hothers, rfl, rfl⟩

/-- Bytes decode to a text if each of their parts is a character of it. -/
theorem decode?_eq_some_iff (bytes : Bytes) (s : String) :
    decode? bytes = some s ↔ decode bytes = s.toList.map some := by
  have parts := mapM_eq_some_iff id (decode bytes)
  simp only [List.map_id] at parts
  rw [decode?, Option.map_eq_some_iff, ← parts]
  constructor
  · rintro ⟨cs, h, rfl⟩
    rw [h, String.toList_ofList]
  · intro h
    exact ⟨s.toList, h, String.ofList_toList⟩

/-- Bytes that decode to a text are its encoding. -/
theorem encode_of_decode?_eq_some {bytes : Bytes} {s : String} (h : decode? bytes = some s) :
    encode s = bytes :=
  (flatMap_of_decodeFrom bytes).1 s.toList ((decode?_eq_some_iff bytes s).mp h)

/-! ## ASCII bytes divide -/

theorem lead_asciiByte {c : Char} (ascii : c.val.toNat < 0x80) : lead (asciiByte c) = .char c := by
  have hb := asciiByte_toNat ascii
  rw [lead, if_pos (by rw [UInt8.lt_iff_toNat_lt]; simpa [hb] using ascii), hb]
  exact congrArg Lead.char (Char.ofNat_toNat c)

/-- An ASCII byte ends whatever was being read, is read as itself, and starts afresh. -/
theorem decodeFrom_append_ascii {c : Char} (ascii : c.val.toNat < 0x80) (before after : Bytes) :
    ∀ reading : Option Pending, (∀ p ∈ reading, 0x80 ≤ p.low.toNat) →
      decodeFrom reading (before ++ asciiByte c :: after) =
        decodeFrom reading before ++ some c :: decodeFrom none after := by
  have hlead := lead_asciiByte ascii
  induction before with
  | nil =>
    intro reading bounded
    cases reading with
    | none => simp [decodeFrom, hlead]
    | some p =>
      -- an ASCII byte lies below every range, so it ends the character being read
      have hlow := bounded p rfl
      have hout : ¬ (p.low ≤ asciiByte c ∧ asciiByte c ≤ p.high) := by
        rintro ⟨h, -⟩
        rw [UInt8.le_iff_toNat_le, asciiByte_toNat ascii] at h
        omega
      simp [decodeFrom, hlead, hout]
  | cons b before ih =>
    have hopens : ∀ {p : Pending}, lead b = .opens p → ∀ q ∈ some p, 0x80 ≤ q.low.toNat := by
      rintro p h q hq
      obtain rfl := Option.some.inj hq
      cases opens_of_lead h <;> assumption
    intro reading bounded
    cases reading with
    | none =>
      rw [List.cons_append, decodeFrom, decodeFrom]
      cases h : lead b with
      | char d => simp [ih none (by simp)]
      | opens p => simpa using ih (some p) (hopens h)
      | invalid => simp [ih none (by simp)]
    | some p =>
      rw [List.cons_append, decodeFrom, decodeFrom]
      by_cases hrange : p.low ≤ b ∧ b ≤ p.high
      · rw [if_pos hrange, if_pos hrange]
        cases p.more with
        | zero => simp [ih none (by simp)]
        | succ more => simpa using ih (some ⟨p.push b, 0x80, 0xbf, more⟩) (by simp)
      · rw [if_neg hrange, if_neg hrange]
        cases h : lead b with
        | char d => simp [ih none (by simp)]
        | opens q => simp [ih (some q) (hopens h)]
        | invalid => simp [ih none (by simp)]

theorem decode_append_ascii {c : Char} (ascii : c.val.toNat < 0x80) (before after : Bytes) :
    decode (before ++ asciiByte c :: after) = decode before ++ some c :: decode after :=
  decodeFrom_append_ascii ascii before after none (by simp)

/-- Bytes around an ASCII byte decode to a text exactly if both sides do. -/
theorem decode?_append_ascii {c : Char} (ascii : c.val.toNat < 0x80) (before after : Bytes) :
    decode? (before ++ asciiByte c :: after) =
      (decode? before).bind fun s => (decode? after).map fun t => s ++ String.singleton c ++ t := by
  rw [decode?, decode?, decode?, decode_append_ascii ascii, List.mapM_append, List.mapM_cons]
  cases (decode before).mapM id with
  | none => rfl
  | some cs =>
    cases (decode after).mapM id with
    | none => rfl
    | some ds =>
      refine congrArg some (String.toList_inj.mp ?_)
      simp

/-! ## What an encoding decodes to -/

theorem lead_two {b : UInt8} (low : 0xc2 ≤ b.toNat) (high : b.toNat < 0xe0) :
    lead b = .opens ⟨b.toNat - 0xc0, 0x80, 0xbf, 0⟩ := by
  unfold lead
  simp only [UInt8.lt_iff_toNat_lt, UInt8.reduceToNat]
  rw [if_neg (by omega), if_neg (by omega), if_pos (by omega)]

theorem lead_three {b : UInt8} (low : 0xe0 ≤ b.toNat) (high : b.toNat < 0xf0) :
    lead b = .opens ⟨b.toNat - 0xe0, if b.toNat = 0xe0 then 0xa0 else 0x80,
      if b.toNat = 0xed then 0x9f else 0xbf, 1⟩ := by
  unfold lead
  simp only [UInt8.lt_iff_toNat_lt, ← UInt8.toNat_inj, UInt8.reduceToNat]
  rw [if_neg (by omega), if_neg (by omega), if_neg (by omega)]
  by_cases hfirst : b.toNat = 0xe0
  · simp [hfirst]
  · by_cases hlast : b.toNat = 0xed
    · simp [hlast]
    · rw [if_neg hfirst, if_neg hlast, if_pos high, if_neg hfirst, if_neg hlast]

theorem lead_four {b : UInt8} (low : 0xf0 ≤ b.toNat) (high : b.toNat ≤ 0xf4) :
    lead b = .opens ⟨b.toNat - 0xf0, if b.toNat = 0xf0 then 0x90 else 0x80,
      if b.toNat = 0xf4 then 0x8f else 0xbf, 2⟩ := by
  unfold lead
  simp only [UInt8.lt_iff_toNat_lt, ← UInt8.toNat_inj, UInt8.reduceToNat]
  rw [if_neg (by omega), if_neg (by omega), if_neg (by omega), if_neg (by omega),
    if_neg (by omega), if_neg (by omega)]
  by_cases hfirst : b.toNat = 0xf0
  · simp [hfirst]
  · by_cases hlast : b.toNat = 0xf4
    · simp [hlast]
    · rw [if_neg hfirst, if_pos (by omega), if_neg hfirst, if_neg hlast]

section

variable {value v : Nat} {low high b : UInt8}

/-- A byte in the bounds of a character goes on with it. -/
theorem decodeFrom_next (hlow : low.toNat ≤ b.toNat) (hhigh : b.toNat ≤ high.toNat)
    (hv : value * 64 + (b.toNat - 0x80) = v) (more : Nat) (rest : Bytes) :
    decodeFrom (some ⟨value, low, high, more + 1⟩) (b :: rest) =
      decodeFrom (some ⟨v, 0x80, 0xbf, more⟩) rest := by
  subst hv
  rw [decodeFrom, if_pos (by rw [UInt8.le_iff_toNat_le, UInt8.le_iff_toNat_le]; exact ⟨hlow, hhigh⟩)]
  rfl

/-- The last byte of a character ends it. -/
theorem decodeFrom_last (hlow : low.toNat ≤ b.toNat) (hhigh : b.toNat ≤ high.toNat)
    (hv : value * 64 + (b.toNat - 0x80) = v) (rest : Bytes) :
    decodeFrom (some ⟨value, low, high, 0⟩) (b :: rest) =
      some (Char.ofNat v) :: decodeFrom none rest := by
  subst hv
  rw [decodeFrom, if_pos (by rw [UInt8.le_iff_toNat_le, UInt8.le_iff_toNat_le]; exact ⟨hlow, hhigh⟩)]
  rfl

end

theorem decodeFrom_two {a b : UInt8} {v : Nat} (ha : a.toNat = v / 64 + 192)
    (hb : b.toNat = v % 64 + 128) (low : 0x80 ≤ v) (high : v < 0x800) (rest : Bytes) :
    decodeFrom none (a :: b :: rest) = some (Char.ofNat v) :: decodeFrom none rest := by
  rw [decodeFrom, lead_two (by omega) (by omega)]
  exact decodeFrom_last (by simp only [UInt8.reduceToNat]; omega)
    (by simp only [UInt8.reduceToNat]; omega) (by omega) rest

theorem decodeFrom_three {a b c : UInt8} {v : Nat} (ha : a.toNat = v / 4096 + 224)
    (hb : b.toNat = v / 64 % 64 + 128) (hc : c.toNat = v % 64 + 128) (low : 0x800 ≤ v)
    (high : v < 0x10000) (valid : v < 0xd800 ∨ 0xdfff < v) (rest : Bytes) :
    decodeFrom none (a :: b :: c :: rest) = some (Char.ofNat v) :: decodeFrom none rest := by
  rw [decodeFrom, lead_three (by omega) (by omega)]
  refine (decodeFrom_next ?_ ?_ rfl 0 _).trans (decodeFrom_last ?_ ?_ (by omega) rest)
  · rw [apply_ite UInt8.toNat]
    simp only [UInt8.reduceToNat]
    split <;> omega
  · rw [apply_ite UInt8.toNat]
    simp only [UInt8.reduceToNat]
    split <;> omega
  · simp only [UInt8.reduceToNat]
    omega
  · simp only [UInt8.reduceToNat]
    omega

theorem decodeFrom_four {a b c d : UInt8} {v : Nat} (ha : a.toNat = v / 262144 + 240)
    (hb : b.toNat = v / 4096 % 64 + 128) (hc : c.toNat = v / 64 % 64 + 128)
    (hd : d.toNat = v % 64 + 128) (low : 0x10000 ≤ v) (high : v < 0x110000) (rest : Bytes) :
    decodeFrom none (a :: b :: c :: d :: rest) =
      some (Char.ofNat v) :: decodeFrom none rest := by
  rw [decodeFrom, lead_four (by omega) (by omega)]
  refine (decodeFrom_next ?_ ?_ rfl 1 _).trans ((decodeFrom_next ?_ ?_ rfl 0 _).trans
    (decodeFrom_last ?_ ?_ (by omega) rest))
  · rw [apply_ite UInt8.toNat]
    simp only [UInt8.reduceToNat]
    split <;> omega
  · rw [apply_ite UInt8.toNat]
    simp only [UInt8.reduceToNat]
    split <;> omega
  · simp only [UInt8.reduceToNat]
    omega
  · simp only [UInt8.reduceToNat]
    omega
  · simp only [UInt8.reduceToNat]
    omega
  · simp only [UInt8.reduceToNat]
    omega

/-- The bytes of a character decode to it, whatever comes next. -/
theorem decodeFrom_utf8EncodeChar (c : Char) (rest : Bytes) :
    decodeFrom none (String.utf8EncodeChar c ++ rest) = some c :: decodeFrom none rest := by
  have hvalid : c.val.toNat < 0xd800 ∨ 0xdfff < c.val.toNat ∧ c.val.toNat < 0x110000 := c.valid
  have hchar : some (Char.ofNat c.val.toNat) :: decodeFrom none rest =
      some c :: decodeFrom none rest := by
    rw [show Char.ofNat c.val.toNat = c from Char.ofNat_toNat c]
  by_cases h1 : c.val.toNat < 0x80
  · rw [utf8EncodeChar_of_ascii h1, List.singleton_append, decodeFrom, lead_asciiByte h1]
  · simp only [String.utf8EncodeChar]
    rw [if_neg (by omega)]
    split
    · refine (decodeFrom_two ?_ ?_ ?_ ?_ rest).trans hchar
      all_goals try rw [UInt8.toNat_ofNat']
      all_goals omega
    · split
      · refine (decodeFrom_three ?_ ?_ ?_ ?_ ?_ ?_ rest).trans hchar
        all_goals try rw [UInt8.toNat_ofNat']
        all_goals omega
      · refine (decodeFrom_four ?_ ?_ ?_ ?_ ?_ ?_ rest).trans hchar
        all_goals try rw [UInt8.toNat_ofNat']
        all_goals omega

/-- The encoding of a text decodes to it. -/
theorem decode_encode (s : String) : decode (encode s) = s.toList.map some := by
  rw [decode, encode]
  induction s.toList with
  | nil => rfl
  | cons c rest ih => rw [List.flatMap_cons, decodeFrom_utf8EncodeChar, ih, List.map_cons]

theorem decode?_encode (s : String) : decode? (encode s) = some s :=
  (decode?_eq_some_iff _ s).mpr (decode_encode s)

theorem decodeLossy_encode (s : String) : decodeLossy (encode s) = s := by
  rw [decodeLossy, decode_encode, List.map_map]
  exact (congrArg String.ofList (List.map_id s.toList)).trans String.ofList_toList

end BenchHarness.Utf8
