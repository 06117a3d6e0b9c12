import BenchHarness.Proofs.JsonRecord

/-!
# Passing over a JSON value

Whatever value a text holds, passing over it ends exactly where the value ends
(`Json.takes_skipAny`), however deep it is nested: the fuel of the reader is enough for every text.
-/

namespace BenchHarness.Json

/-! ## Parts of a text -/

theorem Gap.blanks {s : Bytes} (gap : Gap s) : Blanks s := by
  intro b hb
  have h := gap b hb
  simp only [List.mem_cons, List.not_mem_nil, or_false] at h
  rcases h with rfl | rfl | rfl | rfl <;> decide

theorem blanks_nil : Blanks [] := fun _ h => absurd h List.not_mem_nil

theorem blanks_append {s t : Bytes} (hs : Blanks s) (ht : Blanks t) : Blanks (s ++ t) := by
  intro b hb
  exact (List.mem_append.mp hb).elim (hs b) (ht b)

theorem isDigit_iff (b : UInt8) : isDigit b = true ↔ 0x30 ≤ b ∧ b ≤ 0x39 := by
  rw [isDigit, Bool.and_eq_true, decide_eq_true_eq, decide_eq_true_eq]

theorem hexValue?_of_hexDigit {b : UInt8} {n : Nat} (digit : HexDigit b n) : hexValue? b = some n := by
  simp only [hexValue?, UInt8.le_iff_toNat_le, UInt8.reduceToNat]
  rcases digit with ⟨small, hb⟩ | ⟨large, bound, hb | hb⟩
  · rw [if_pos (by omega), hb, Nat.add_sub_cancel_left]
  · rw [if_neg (by omega), if_pos (by omega), show b.toNat - 0x37 = n by omega]
  · rw [if_neg (by omega), if_neg (by omega), if_pos (by omega), show b.toNat - 0x57 = n by omega]

theorem scanHex_append {digits : Bytes} {n : Nat} (hex : Hex digits n) (rest : Bytes) :
    scanHex (digits ++ rest) = .ok (n, rest) := by
  obtain ⟨h₁, h₂, h₃, h₄⟩ := hex
  simp only [List.cons_append, List.nil_append, scanHex, hexValue?_of_hexDigit h₁,
    hexValue?_of_hexDigit h₂, hexValue?_of_hexDigit h₃, hexValue?_of_hexDigit h₄]

theorem escapeByte?_of_letters : ∀ m ∈ letters,
    escapeByte? m.1 = some (Utf8.asciiByte m.2) ∧ m.2.val.toNat < 0x80 := by decide

theorem escapeByte?_u : escapeByte? 0x75 = none := by decide

/-! ## Strings and words -/

/-- Passing over a string ends at its closing quote. -/
theorem skipString_body {s : Bytes} (body : Body s) (rest : Bytes) :
    ∀ fuel, s.length < fuel → skipString fuel (s ++ 0x22 :: rest) = .ok ((), rest) := by
  induction body with
  | nil =>
    intro fuel enough
    cases fuel with
    | zero => omega
    | succ fuel =>
      rw [List.nil_append, skipString.eq_def]
      simp only [if_true]
  | @plain b s quote backslash control more ih =>
    intro fuel enough
    cases fuel with
    | zero => omega
    | succ fuel =>
      rw [List.length_cons] at enough
      have notControl : ¬ b < 0x20 := UInt8.not_lt.mpr control
      rw [List.cons_append, skipString.eq_def]
      simp only [if_neg quote, if_neg backslash, if_neg notControl, ih fuel (by omega)]
  | @letter b c s listed more ih =>
    intro fuel enough
    cases fuel with
    | zero => omega
    | succ fuel =>
      simp only [List.length_cons] at enough
      have known := (escapeByte?_of_letters _ listed).1
      have backslash : (0x5c : UInt8) ≠ 0x22 := by decide
      rw [List.cons_append, List.cons_append, skipString.eq_def]
      simp only [if_neg backslash, known, Option.isSome_some, if_true, ih fuel (by omega)]
  | @hex digits s n hdigits more ih =>
    intro fuel enough
    cases fuel with
    | zero => omega
    | succ fuel =>
      simp only [List.length_cons, List.length_append] at enough
      have backslash : (0x5c : UInt8) ≠ 0x22 := by decide
      rw [List.cons_append, List.cons_append, List.append_assoc, skipString.eq_def]
      simp only [if_neg backslash, if_true, escapeByte?_u, Option.isSome_none, Bool.false_eq_true, if_false,
        ne_eq, not_true_eq_false, scanHex_append hdigits, bind, Except.bind, ih fuel (by omega)]

theorem scanWord_append (word rest : Bytes) : scanWord word (word ++ rest) = .ok ((), rest) := by
  induction word with
  | nil => rfl
  | cons b word ih => rw [List.cons_append, scanWord, if_pos rfl, ih]

/-! ## Numbers -/

/-- No digit follows. -/
def NoDigit (s : Bytes) : Prop := ∀ b ∈ s.head?, isDigit b = false

theorem noDigit_nil : NoDigit [] := fun b hb => absurd hb (Option.not_mem_none b)

theorem noDigit_cons {b : UInt8} (h : ¬ isDigit b = true) (rest : Bytes) : NoDigit (b :: rest) := by
  intro c hc
  obtain rfl : b = c := Option.some.inj hc
  exact Bool.eq_false_iff.mpr h

theorem Ends.noDigit {rest : Bytes} (ends : Ends rest) : NoDigit rest := by
  intro b hb
  obtain ⟨more, rfl⟩ := List.head?_eq_some_iff.mp hb
  exact ends.stops.1

theorem dropWhile_digits {digits rest : Bytes} (all : ∀ b ∈ digits, 0x30 ≤ b ∧ b ≤ 0x39)
    (stop : NoDigit rest) : (digits ++ rest).dropWhile isDigit = rest := by
  rw [List.dropWhile_append_of_pos fun b hb => (isDigit_iff b).mpr (all b hb)]
  cases rest with
  | nil => rfl
  | cons b rest => exact List.dropWhile_cons_of_neg (by rw [stop b rfl]; decide)

/-- Digits begin with one. -/
theorem Digits.exists_cons {s : Bytes} (digits : Digits s) :
    ∃ first more, s = first :: more ∧ isDigit first = true ∧ ∀ b ∈ more, 0x30 ≤ b ∧ b ≤ 0x39 := by
  obtain ⟨nonempty, all⟩ := digits
  obtain ⟨first, more, rfl⟩ := List.exists_cons_of_ne_nil nonempty
  exact ⟨first, more, rfl, (isDigit_iff first).mpr (all first List.mem_cons_self),
    fun b hb => all b (List.mem_cons_of_mem first hb)⟩

/-- No whole number goes on with decimals or an exponent. -/
theorem Exponent.noDigit {exponent rest : Bytes} (h : Exponent exponent) (ends : Ends rest) :
    NoDigit (exponent ++ rest) := by
  rcases h with rfl | ⟨mark, sign, digits, hmark, -, -, rfl⟩
  · exact ends.noDigit
  · refine noDigit_cons ?_ _
    simp only [List.mem_cons, List.not_mem_nil, or_false] at hmark
    rcases hmark with rfl | rfl <;> decide

theorem Fraction.noDigit {fraction exponent rest : Bytes} (h : Fraction fraction)
    (hexponent : Exponent exponent) (ends : Ends rest) :
    NoDigit (fraction ++ (exponent ++ rest)) := by
  rcases h with rfl | ⟨digits, -, rfl⟩
  · exact hexponent.noDigit ends
  · exact noDigit_cons (by decide) _

theorem skipExponent_append {sign digits rest : Bytes} (hsign : sign ∈ [[], [0x2b], [0x2d]])
    (hdigits : Digits digits) (ends : Ends rest) :
    skipExponent (sign ++ (digits ++ rest)) = .ok ((), rest) := by
  obtain ⟨first, more, rfl, digit, all⟩ := hdigits.exists_cons
  have hdrop := dropWhile_digits all ends.noDigit
  simp only [List.mem_cons, List.not_mem_nil, or_false] at hsign
  rcases hsign with rfl | rfl | rfl
  · have hsigns : ¬ (first = 0x2b ∨ first = 0x2d) := by
      rintro (rfl | rfl) <;> exact absurd digit (by decide)
    simp only [List.nil_append, List.cons_append, skipExponent, if_neg hsigns, digit, if_true, hdrop]
  · simp [skipExponent, digit, hdrop]
  · simp [skipExponent, digit, hdrop]

theorem skipFraction_append {fraction exponent rest : Bytes} (hfraction : Fraction fraction)
    (hexponent : Exponent exponent) (ends : Ends rest) :
    skipFraction (fraction ++ (exponent ++ rest)) = .ok ((), rest) := by
  -- what the exponent does where it is looked for
  have hend : ∀ {b : UInt8} {more : Bytes}, exponent ++ rest = b :: more →
      b ≠ 0x2e ∧ (if isExponentMark b then skipExponent more else .ok ((), b :: more)) = .ok ((), rest) := by
    intro b more hs
    rcases hexponent with rfl | ⟨mark, sign, digits, hmark, hsign, hdigits, rfl⟩
    · rw [List.nil_append] at hs
      subst hs
      obtain ⟨-, notPoint, notMark⟩ := ends.stops
      exact ⟨notPoint, by simp [notMark]⟩
    · simp only [List.cons_append, List.append_assoc, List.cons.injEq] at hs
      obtain ⟨rfl, rfl⟩ := hs
      have hskip := skipExponent_append hsign hdigits ends
      simp only [List.mem_cons, List.not_mem_nil, or_false] at hmark
      rcases hmark with rfl | rfl
      · exact ⟨by decide, by rw [if_pos (by decide), hskip]⟩
      · exact ⟨by decide, by rw [if_pos (by decide), hskip]⟩
  rcases hfraction with rfl | ⟨digits, hdigits, rfl⟩
  · rw [List.nil_append]
    cases hs : exponent ++ rest with
    | nil =>
      obtain ⟨-, rfl⟩ := List.append_eq_nil_iff.mp hs
      rfl
    | cons b more =>
      obtain ⟨notPoint, hmark⟩ := hend hs
      simp only [skipFraction, if_neg notPoint, hmark]
  · obtain ⟨first, more, rfl, digit, all⟩ := hdigits.exists_cons
    have hdrop := dropWhile_digits all (hexponent.noDigit ends)
    have hfirst : (first :: (more ++ (exponent ++ rest))).dropWhile isDigit = exponent ++ rest := by
      rw [List.dropWhile_cons_of_pos digit, hdrop]
    simp only [List.cons_append, skipFraction, if_true, digit, hfirst]
    cases hs : exponent ++ rest with
    | nil =>
      obtain ⟨-, rfl⟩ := List.append_eq_nil_iff.mp hs
      rfl
    | cons b more => exact (hend hs).2

/-- A numeral begins with a digit. -/
theorem Numeral.exists_cons {s : Bytes} (numeral : Numeral s) :
    ∃ first more, s = first :: more ∧ isDigit first = true := by
  obtain ⟨⟨digits, -⟩, -, -⟩ := numeral
  obtain ⟨first, more, rfl, digit, -⟩ := digits.exists_cons
  exact ⟨first, _, rfl, digit⟩

/-- Passing over a number ends where it ends. -/
theorem skipNumber_append {s rest : Bytes} (numeral : Numeral s) (ends : Ends rest) :
    skipNumber (s ++ rest) = .ok ((), rest) := by
  obtain ⟨⟨digits, alone⟩, hfraction, hexponent⟩ := numeral
  rename_i whole fraction exponent
  have hskip := skipFraction_append hfraction hexponent ends
  have stop := hfraction.noDigit hexponent ends
  obtain ⟨first, more, rfl, digit, all⟩ := digits.exists_cons
  have hdrop := dropWhile_digits all stop
  simp only [List.cons_append, List.append_assoc, skipNumber]
  by_cases zero : first = 0x30
  · obtain ⟨-, rfl⟩ := List.cons.inj (alone (congrArg some zero))
    simp only [if_pos zero, List.nil_append]
    cases hs : fraction ++ (exponent ++ rest) with
    | nil =>
      rw [hs] at hskip
      exact hskip
    | cons b more =>
      rw [hs] at stop hskip
      simp only [stop b rfl, Bool.false_eq_true, if_false, hskip]
  · simp only [if_neg zero, digit, if_true, hdrop, hskip]

/-! ## Values -/

/-- A reader takes the bytes of a value, with any blanks before it, and stops where they end. -/
def Takes {α : Type} (reader : Reader α) (s : Bytes) (x : α) : Prop :=
  ∀ blanks rest, Blanks blanks → Ends rest → reader (blanks ++ (s ++ rest)) = .ok (x, rest)

/-- A text that can be an element: it begins, and not with what closes an array. -/
def Begins (s : Bytes) : Prop := ∃ b more, s = b :: more ∧ isBlank b = false ∧ b ≠ 0x5d

theorem Value.begins {s : Bytes} (value : Value s) : Begins s := by
  have hdigit : ∀ {b : UInt8}, isDigit b = true → isBlank b = false ∧ b ≠ 0x5d := by
    intro b digit
    refine ⟨isBlank_of_isDigit digit, ?_⟩
    rintro rfl
    exact absurd digit (by decide)
  cases value with
  | word listed =>
    simp only [List.mem_cons, List.not_mem_nil, or_false] at listed
    rcases listed with rfl | rfl | rfl
    · exact ⟨0x6e, [0x75, 0x6c, 0x6c], by decide⟩
    · exact ⟨0x74, [0x72, 0x75, 0x65], by decide⟩
    · exact ⟨0x66, [0x61, 0x6c, 0x73, 0x65], by decide⟩
  | number numeral =>
    obtain ⟨first, more, hs, digit⟩ := numeral.exists_cons
    exact ⟨first, more, hs, hdigit digit⟩
  | negative numeral => exact ⟨0x2d, _, rfl, by decide⟩
  | string quoted =>
    obtain ⟨body⟩ := quoted
    exact ⟨0x22, _, rfl, by decide⟩
  | array items each => exact ⟨0x5b, _, rfl, by decide⟩
  | object items names each => exact ⟨0x7b, _, rfl, by decide⟩

theorem ends_gap {gap : Bytes} (hgap : Gap gap) : Ends gap := by
  intro b hb
  exact Or.inr (Or.inr (Or.inr (hgap.blanks b (List.mem_of_mem_head? hb))))

theorem ends_close {gap : Bytes} (hgap : Gap gap) {close : UInt8}
    (hclose : close = 0x5d ∨ close = 0x7d) (rest : Bytes) : Ends (gap ++ close :: rest) := by
  refine ends_append hgap.blanks ?_
  intro b hb
  obtain rfl : close = b := Option.some.inj hb
  exact Or.inr (hclose.imp_right Or.inl)

theorem ends_comma {gap : Bytes} (hgap : Gap gap) (rest : Bytes) : Ends (gap ++ 0x2c :: rest) := by
  refine ends_append hgap.blanks ?_
  intro b hb
  obtain rfl : 0x2c = b := Option.some.inj hb
  exact Or.inl rfl

/-- After an item there is a comma, or what closes the listing. -/
theorem Items.ends {α : Type} {Item : α → Bytes → Prop} {close : UInt8} {xs : List α} {s : Bytes}
    (items : Items Item close false xs s) (hclose : close = 0x5d ∨ close = 0x7d) (rest : Bytes) :
    Ends (s ++ rest) := by
  cases items with
  | done hgap =>
    rw [List.append_assoc]
    exact ends_close hgap hclose rest
  | item hgap hlead htext hmore =>
    rw [List.append_assoc]
    exact ends_comma hgap _

theorem skipColon_blanks {blanks : Bytes} (blank : Blanks blanks) (rest : Bytes) :
    skipColon (blanks ++ 0x3a :: rest) = .ok ((), rest) := by
  simp only [skipColon, skipBlank_append blank (show isBlank 0x3a = false by decide), if_true]

theorem skipName_quoted {name blanks : Bytes} (quoted : Quoted name) (blank : Blanks blanks)
    (rest : Bytes) : skipName (blanks ++ (name ++ rest)) = .ok ((), rest) := by
  obtain ⟨body⟩ := quoted
  rename_i inner
  have hskip := skipString_body body rest ((inner ++ 0x22 :: rest).length + 1) (by
    rw [List.length_append]
    omega)
  simp only [skipName, List.cons_append, List.append_assoc, List.nil_append,
    skipBlank_append blank (show isBlank 0x22 = false by decide), if_true, hskip]

/-- A value is passed over with any fuel that is enough for its bytes. -/
def Passed (s : Bytes) : Prop := ∀ fuel, 2 * s.length < fuel → Takes (skipValue fuel) s ()

/-! ## Elements and members -/

/-- After an element it is the next byte that decides. -/
theorem skipElements_step {value blanks rest more : Bytes} {b : UInt8} {fuel : Nat} (passed : Passed value)
    (blank : Blanks blanks) (ends : Ends rest) (hrest : skipBlank rest = b :: more)
    (enough : 2 * value.length < fuel) :
    skipElements (fuel + 1) (blanks ++ (value ++ rest)) =
      if b = 0x2c then skipElements fuel more
      else if b = 0x5d then .ok ((), more)
      else .error (atNext .expectedArrayEnd (b :: more)) := by
  have hvalue := passed fuel enough blanks rest blank ends
  rw [skipElements]
  simp only [hvalue, bind, Except.bind, hrest]
  rfl

/-- Passing over the elements of an array, from one of them on. -/
theorem skipElements_items {first : Bool} {values : List Bytes} {s : Bytes}
    (items : Items Eq 0x5d first values s) (later : first = false) (each : ∀ v ∈ values, Passed v) :
    ∀ {value blanks : Bytes} (rest : Bytes) (fuel : Nat), Passed value → Blanks blanks →
      2 * (value.length + s.length) < fuel →
      skipElements fuel (blanks ++ (value ++ (s ++ rest))) = .ok ((), rest) := by
  induction items with
  | @done first gap hgap =>
    intro value blanks rest fuel passed blank enough
    rw [List.length_append, List.length_singleton] at enough
    cases fuel with
    | zero => omega
    | succ fuel =>
      rw [List.append_assoc, List.singleton_append,
        skipElements_step passed blank (ends_close hgap (Or.inl rfl) rest)
          (skipBlank_append hgap.blanks (by decide) rest) (by omega)]
      rfl
  | @item first x xs gap lead text more hgap hlead htext hmore ih =>
    intro value blanks rest fuel passed blank enough
    subst later htext
    simp only [separator, List.length_append, List.length_singleton, Bool.false_eq_true, if_false] at enough
    cases fuel with
    | zero => omega
    | succ fuel =>
      have hmore := ih rfl (fun v hv => each v (List.mem_cons_of_mem x hv)) rest fuel
        (each x List.mem_cons_self) hlead.blanks (by omega)
      simp only [separator, Bool.false_eq_true, if_false, List.append_assoc, List.cons_append,
        List.nil_append]
      rw [skipElements_step passed blank (ends_comma hgap _)
        (skipBlank_append hgap.blanks (by decide) _) (by omega), if_pos rfl, hmore]

/-- After a member it is the next byte that decides. -/
theorem skipMembers_step {m : Bytes × Bytes} {text blanks rest more : Bytes} {b : UInt8} {fuel : Nat}
    (member : Member m text) (quoted : Quoted m.1) (passed : Passed m.2) (blank : Blanks blanks)
    (ends : Ends rest) (hrest : skipBlank rest = b :: more) (enough : 2 * text.length ≤ fuel) :
    skipMembers (fuel + 1) (blanks ++ (text ++ rest)) =
      if b = 0x2c then skipMembers fuel more
      else if b = 0x7d then .ok ((), more)
      else .error (atNext .expectedObjectEnd (b :: more)) := by
  obtain @⟨name, value, before, after, hbefore, hafter⟩ := member
  simp only [List.length_append, List.length_cons] at enough
  have hname := skipName_quoted quoted blank (before ++ 0x3a :: (after ++ (value ++ rest)))
  have hcolon := skipColon_blanks hbefore.blanks (after ++ (value ++ rest))
  have hvalue := passed fuel (by simp only; omega) after rest hafter.blanks ends
  rw [skipMembers]
  simp only [List.append_assoc, List.cons_append, hname, hcolon, hvalue, bind, Except.bind, hrest]
  rfl

/-- Passing over the members of an object, from one of them on. -/
theorem skipMembers_items {first : Bool} {members : List (Bytes × Bytes)} {s : Bytes}
    (items : Items Member 0x7d first members s) (later : first = false)
    (each : ∀ m ∈ members, Quoted m.1 ∧ Passed m.2) :
    ∀ {m : Bytes × Bytes} {text blanks : Bytes} (rest : Bytes) (fuel : Nat), Member m text →
      Quoted m.1 → Passed m.2 → Blanks blanks → 2 * (text.length + s.length) < fuel →
      skipMembers fuel (blanks ++ (text ++ (s ++ rest))) = .ok ((), rest) := by
  induction items with
  | @done first gap hgap =>
    intro m text blanks rest fuel member quoted passed blank enough
    rw [List.length_append, List.length_singleton] at enough
    cases fuel with
    | zero => omega
    | succ fuel =>
      rw [List.append_assoc, List.singleton_append,
        skipMembers_step member quoted passed blank (ends_close hgap (Or.inr rfl) rest)
          (skipBlank_append hgap.blanks (by decide) rest) (by omega)]
      rfl
  | @item first x xs gap lead next more hgap hlead htext hmore ih =>
    intro m text blanks rest fuel member quoted passed blank enough
    subst later
    simp only [separator, List.length_append, List.length_singleton, Bool.false_eq_true, if_false] at enough
    cases fuel with
    | zero => omega
    | succ fuel =>
      obtain ⟨quoted', passed'⟩ := each x List.mem_cons_self
      have hmore := ih rfl (fun v hv => each v (List.mem_cons_of_mem x hv)) rest fuel htext
        quoted' passed' hlead.blanks (by omega)
      simp only [separator, Bool.false_eq_true, if_false, List.append_assoc, List.cons_append,
        List.nil_append]
      rw [skipMembers_step member quoted passed blank (ends_comma hgap _)
        (skipBlank_append hgap.blanks (by decide) _) (by omega), if_pos rfl, hmore]

/-! ## Values of each kind -/

/-- It is enough to pass over a value where it begins. -/
theorem passed_of_begins {b : UInt8} {more : Bytes} (solid : isBlank b = false)
    (h : ∀ fuel rest, 2 * more.length < fuel → Ends rest →
      skipValue (fuel + 1) (b :: (more ++ rest)) = .ok ((), rest)) : Passed (b :: more) := by
  intro fuel enough blanks rest blank ends
  rw [List.length_cons] at enough
  cases fuel with
  | zero => omega
  | succ fuel =>
    have hstart := h fuel rest (by omega) ends
    have hcons := skipBlank_append blanks_nil solid (more ++ rest)
    rw [List.nil_append] at hcons
    simp only [skipValue, hcons] at hstart
    simp only [List.cons_append, skipValue, skipBlank_append blank solid, hstart]

theorem passed_word {word : String} (listed : word ∈ ["null", "true", "false"]) :
    Passed (Utf8.encode word) := by
  simp only [List.mem_cons, List.not_mem_nil, or_false] at listed
  rcases listed with rfl | rfl | rfl
  · have hword : Utf8.encode "null" = [0x6e, 0x75, 0x6c, 0x6c] := by decide
    rw [hword]
    exact passed_of_begins (by decide) fun _ rest _ _ => scanWord_append [0x75, 0x6c, 0x6c] rest
  · have hword : Utf8.encode "true" = [0x74, 0x72, 0x75, 0x65] := by decide
    rw [hword]
    exact passed_of_begins (by decide) fun _ rest _ _ => scanWord_append [0x72, 0x75, 0x65] rest
  · have hword : Utf8.encode "false" = [0x66, 0x61, 0x6c, 0x73, 0x65] := by decide
    rw [hword]
    exact passed_of_begins (by decide) fun _ rest _ _ => scanWord_append [0x61, 0x6c, 0x73, 0x65] rest

theorem passed_number {s : Bytes} (numeral : Numeral s) : Passed s := by
  have hskip : ∀ rest, Ends rest → skipNumber (s ++ rest) = .ok ((), rest) :=
    fun rest => skipNumber_append numeral
  obtain ⟨first, more, rfl, digit⟩ := numeral.exists_cons
  refine passed_of_begins (isBlank_of_isDigit digit) fun fuel rest _ ends => ?_
  have hother : first ≠ 0x6e ∧ first ≠ 0x74 ∧ first ≠ 0x66 ∧ first ≠ 0x2d := by
    refine ⟨?_, ?_, ?_, ?_⟩ <;> rintro rfl <;> exact absurd digit (by decide)
  have hcons := skipBlank_append blanks_nil (isBlank_of_isDigit digit) (more ++ rest)
  rw [List.nil_append] at hcons
  simp only [skipValue, hcons, hother, if_false, digit, if_true]
  exact hskip rest ends

theorem passed_string {s : Bytes} (quoted : Quoted s) : Passed s := by
  obtain @⟨inner, body⟩ := quoted
  refine passed_of_begins (by decide) fun fuel rest _ _ => ?_
  rw [List.append_assoc]
  refine skipString_body body rest _ ?_
  rw [List.length_append]
  omega

theorem skipValue_bracket {inside : Bytes} {b : UInt8} {more : Bytes} (h : skipBlank inside = b :: more)
    (fuel : Nat) : skipValue (fuel + 1) (0x5b :: inside) =
      if b = 0x5d then .ok ((), more) else skipElements fuel (b :: more) := by
  have hbracket : skipBlank (0x5b :: inside) = 0x5b :: inside := List.dropWhile_cons_of_neg (by decide)
  have notDigit : isDigit 0x5b = false := by decide
  simp [skipValue, hbracket, notDigit, h]

theorem passed_array {values : List Bytes} {more : Bytes} (items : Items Eq 0x5d true values more)
    (each : ∀ v ∈ values, Begins v ∧ Passed v) : Passed (0x5b :: more) := by
  refine passed_of_begins (by decide) fun fuel rest enough _ => ?_
  cases items with
  | @done _ gap hgap =>
    have hclose := skipBlank_append hgap.blanks (show isBlank 0x5d = false by decide) rest
    rw [List.append_assoc, List.singleton_append, skipValue_bracket hclose, if_pos rfl]
  | @item _ x xs gap lead text more hgap hlead htext hmore =>
    subst htext
    obtain ⟨⟨b, others, rfl, solid, notClose⟩, passed⟩ := each x List.mem_cons_self
    have hopen := skipBlank_append (blanks_append hgap.blanks hlead.blanks) solid
      (others ++ (more ++ rest))
    have hskip := skipElements_items hmore rfl (fun v hv => (each v (List.mem_cons_of_mem _ hv)).2) rest
      fuel passed blanks_nil (by
        simp only [separator, List.length_cons, List.length_append] at enough ⊢
        omega)
    simp only [separator, if_true, List.append_assoc, List.cons_append, List.nil_append] at hopen hskip ⊢
    rw [skipValue_bracket hopen, if_neg notClose, hskip]

theorem skipValue_brace {inside : Bytes} {b : UInt8} {more : Bytes} (h : skipBlank inside = b :: more)
    (fuel : Nat) : skipValue (fuel + 1) (0x7b :: inside) =
      if b = 0x7d then .ok ((), more) else skipMembers fuel (b :: more) := by
  have hbrace : skipBlank (0x7b :: inside) = 0x7b :: inside := List.dropWhile_cons_of_neg (by decide)
  have notDigit : isDigit 0x7b = false := by decide
  simp [skipValue, hbrace, notDigit, h]

theorem passed_object {members : List (Bytes × Bytes)} {more : Bytes}
    (items : Items Member 0x7d true members more) (each : ∀ m ∈ members, Quoted m.1 ∧ Passed m.2) :
    Passed (0x7b :: more) := by
  refine passed_of_begins (by decide) fun fuel rest enough _ => ?_
  cases items with
  | @done _ gap hgap =>
    have hclose := skipBlank_append hgap.blanks (show isBlank 0x7d = false by decide) rest
    rw [List.append_assoc, List.singleton_append, skipValue_brace hclose, if_pos rfl]
  | @item _ m members gap lead text more hgap hlead member hmore =>
    obtain ⟨quoted, passed⟩ := each m List.mem_cons_self
    have hskip := skipMembers_items hmore rfl (fun m' hm' => each m' (List.mem_cons_of_mem m hm')) rest
      fuel member quoted passed blanks_nil (by
        simp only [separator, List.length_append] at enough
        omega)
    obtain ⟨others, rfl⟩ : ∃ others, text = 0x22 :: others := by
      obtain ⟨-, -⟩ := member
      obtain ⟨-⟩ := quoted
      exact ⟨_, rfl⟩
    have hopen := skipBlank_append (blanks_append hgap.blanks hlead.blanks)
      (show isBlank 0x22 = false by decide) (others ++ (more ++ rest))
    simp only [separator, if_true, List.append_assoc, List.cons_append, List.nil_append] at hopen hskip ⊢
    rw [skipValue_brace hopen, if_neg (by decide), hskip]

/-- Every value is passed over up to its end. -/
theorem Value.passed {s : Bytes} (value : Value s) : Passed s := by
  induction value with
  | word listed => exact passed_word listed
  | number numeral => exact passed_number numeral
  | negative numeral =>
    exact passed_of_begins (by decide) fun fuel rest _ ends => skipNumber_append numeral ends
  | string quoted => exact passed_string quoted
  | array items each ih => exact passed_array items fun v hv => ⟨(each v hv).begins, ih v hv⟩
  | object items names each ih => exact passed_object items fun m hm => ⟨names m hm, ih m hm⟩

/-- A value that is not wanted is passed over up to its end. -/
theorem takes_skipAny {s : Bytes} (value : Value s) : Takes skipAny s () := by
  intro blanks rest blank ends
  refine value.passed _ ?_ blanks rest blank ends
  simp only [List.length_append]
  omega

end BenchHarness.Json
