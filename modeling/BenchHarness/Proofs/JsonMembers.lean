import BenchHarness.Proofs.JsonSkip

/-!
# Records among other members

A string is read to its text however it is escaped (`Json.readString_spells`), and a record is read from
its members in any order, with whatever else stands between them (`Json.Filling.takes`). The invariant of
the run over the members is that exactly the fields whose members have been passed are set.
-/

namespace BenchHarness.Json

/-! ## Strings -/

theorem scanEscape_hex {digits s : Bytes} {n : Nat} (hex : Hex digits n) :
    scanEscape (0x75 :: (digits ++ s)) =
      if 0xdc00 ≤ n ∧ n ≤ 0xdfff then .error ⟨.loneSurrogate, s⟩
      else if 0xd800 ≤ n ∧ n ≤ 0xdbff then scanLowSurrogate n s
      else .ok (codePoint n, s) := by
  rw [scanEscape]
  simp only [escapeByte?_u, ne_eq, not_true_eq_false, if_false, scanHex_append hex, bind, Except.bind]
  by_cases low : 0xdc00 ≤ n ∧ n ≤ 0xdfff
  · simp only [if_pos low]
    rfl
  · simp only [if_neg low]
    rfl

theorem scanLowSurrogate_hex {digits s : Bytes} {n : Nat} (hex : Hex digits n) (high : Nat) :
    scanLowSurrogate high (0x5c :: 0x75 :: (digits ++ s)) =
      if n < 0xdc00 ∨ 0xdfff < n then .error ⟨.loneSurrogate, s⟩
      else .ok (codePoint (0x10000 + (high - 0xd800) * 0x400 + (n - 0xdc00)), s) := by
  simp only [scanLowSurrogate, ne_eq, not_true_eq_false, if_false, scanHex_append hex, bind, Except.bind]
  by_cases outside : n < 0xdc00 ∨ 0xdfff < n
  · simp only [if_pos outside]
    rfl
  · simp only [if_neg outside]
    rfl

/-- The code point of a character is no surrogate. -/
theorem toNat_not_surrogate (c : Char) : c.toNat < 0xd800 ∨ 0xdfff < c.toNat ∧ c.toNat < 0x110000 :=
  c.valid

/-- However some characters are written in a string, they are scanned to their bytes. -/
theorem scans_spells {chars : List Char} {s : Bytes} (spells : Spells chars s) (rest : Bytes) :
    Scans (s ++ 0x22 :: rest) (chars.flatMap String.utf8EncodeChar) rest := by
  induction spells with
  | nil => exact .close rest
  | @plain c chars s quote backslash control more ih =>
    rw [List.append_assoc, List.flatMap_cons]
    exact ih.plainAll (plain_of_mem_utf8EncodeChar quote backslash (Nat.not_lt.mpr control))
  | @letter b c chars s listed more ih =>
    obtain ⟨known, ascii⟩ := escapeByte?_of_letters _ listed
    have hescape : scanEscape ([b] ++ (s ++ 0x22 :: rest)) =
        .ok (String.utf8EncodeChar c, s ++ 0x22 :: rest) := by
      simp only [List.singleton_append, scanEscape, known, Utf8.utf8EncodeChar_of_ascii ascii]
    exact ih.escaped hescape
  | @hex c chars digits s hdigits more ih =>
    have valid := toNat_not_surrogate c
    have hescape : scanEscape (0x75 :: digits ++ (s ++ 0x22 :: rest)) =
        .ok (String.utf8EncodeChar c, s ++ 0x22 :: rest) := by
      rw [List.cons_append, scanEscape_hex hdigits, if_neg (by omega), if_neg (by omega), codePoint,
        Char.ofNat_toNat]
    have hscans := ih.escaped hescape
    rw [List.cons_append, ← List.append_assoc] at hscans
    exact hscans
  | @pair c chars high low s past hhigh hlow more ih =>
    have valid := toNat_not_surrogate c
    -- the two halves make the code point again
    have hsum : 0x10000 + (0xd800 + (c.toNat - 0x10000) / 0x400 - 0xd800) * 0x400 +
        (0xdc00 + (c.toNat - 0x10000) % 0x400 - 0xdc00) = c.toNat := by omega
    have hescape : scanEscape (0x75 :: (high ++ 0x5c :: 0x75 :: low) ++ (s ++ 0x22 :: rest)) =
        .ok (String.utf8EncodeChar c, s ++ 0x22 :: rest) := by
      simp only [List.cons_append, List.append_assoc]
      rw [scanEscape_hex hhigh, if_neg (by omega), if_pos (by omega), scanLowSurrogate_hex hlow,
        if_neg (by omega), hsum, codePoint, Char.ofNat_toNat]
    have hscans := ih.escaped hescape
    simp only [List.cons_append, List.append_assoc] at hscans ⊢
    exact hscans

theorem readString_spells {text : String} {s : Bytes} (spells : Spells text.toList s) (rest : Bytes) :
    readString (s ++ 0x22 :: rest) = .ok (text, rest) := by
  have hbytes := Utf8.decodeLossy_encode text
  rw [readString, scans_spells spells rest _ (Nat.lt_succ_self _)]
  rw [Utf8.encode] at hbytes
  simp only [bind, Except.bind, pure, Except.pure, hbytes]

theorem takes_readText (wanted : String) {text : String} {s : Bytes} (h : StringOf text s) :
    Takes (readText wanted) s text := by
  intro blanks rest blank _
  obtain ⟨spells⟩ := h
  simp only [readText, List.cons_append, List.append_assoc, List.nil_append,
    skipBlank_append blank (show isBlank 0x22 = false by decide), if_true, readString_spells spells]

/-- What is made of a value is taken where the value is. -/
theorem Takes.map {α β : Type} {reader : Reader α} {s : Bytes} {x : α} (takes : Takes reader s x)
    (f : α → β) :
    Takes (fun s => do
      let (x, s) ← reader s
      pure (f x, s)) s (f x) := by
  intro blanks rest blank ends
  simp only [takes blanks rest blank ends, bind, Except.bind, pure, Except.pure]

/-! ## Arrays -/

theorem skipBlank_blanks {blanks : Bytes} (blank : Blanks blanks) (s : Bytes) :
    skipBlank (blanks ++ s) = skipBlank s := List.dropWhile_append_of_pos blank

/-- Every item takes a byte of its listing at least. -/
theorem Items.length_le {α : Type} {Item : α → Bytes → Prop} {close : UInt8} {first : Bool} {xs : List α}
    {s : Bytes} (items : Items Item close first xs s) :
    xs.length + (separator first).length ≤ s.length := by
  induction items with
  | @done first gap hgap =>
    cases first <;> simp [separator]
  | @item first x xs gap lead text more hgap hlead htext hmore ih =>
    simp only [List.length_cons, List.length_append, separator] at ih ⊢
    simp only [Bool.false_eq_true, if_false, List.length_singleton] at ih
    omega

section

variable {blanks : Bytes} (blank : Blanks blanks)

include blank

theorem nextElement_blanks (first : Bool) (s : Bytes) :
    nextElement first (blanks ++ s) = nextElement first s := by
  rw [nextElement, skipBlank_blanks blank, ← nextElement]

theorem nextMember_blanks (first : Bool) (s : Bytes) :
    nextMember first (blanks ++ s) = nextMember first s := by
  rw [nextMember, skipBlank_blanks blank, ← nextMember]

end

/-- The step to an element. -/
theorem nextElement_item {gap lead text : Bytes} (hgap : Gap gap) (hlead : Gap lead) (begins : Begins text)
    (first : Bool) (rest : Bytes) :
    nextElement first (gap ++ (separator first ++ (lead ++ (text ++ rest)))) = .ok (some (text ++ rest)) := by
  obtain ⟨b, others, rfl, solid, notClose⟩ := begins
  rw [nextElement_blanks hgap.blanks]
  exact nextElement_separator hlead.blanks solid notClose first (others ++ rest)

/-- Elements are read one after the other, up to the end of the array. -/
theorem readArrayItems_items {α : Type} {Item : α → Bytes → Prop} {item : Reader α} {first : Bool}
    {xs : List α} {s : Bytes} (items : Items Item 0x5d first xs s)
    (each : ∀ x text, Item x text → Begins text ∧ Takes item text x) (rest : Bytes) :
    ∀ fuel, xs.length < fuel → readArrayItems item fuel first (s ++ rest) = .ok (xs, rest) := by
  induction items with
  | @done first gap hgap =>
    intro fuel enough
    cases fuel with
    | zero => omega
    | succ fuel =>
      rw [List.append_assoc, List.singleton_append, readArrayItems, nextElement_close hgap.blanks]
      simp only [bind, Except.bind, pure, Except.pure,
        pastClose_append hgap.blanks (show isBlank 0x5d = false by decide)]
  | @item first x xs gap lead text more hgap hlead htext hmore ih =>
    intro fuel enough
    obtain ⟨begins, takes⟩ := each x text htext
    cases fuel with
    | zero => omega
    | succ fuel =>
      rw [List.length_cons] at enough
      have hitem := takes [] (more ++ rest) blanks_nil (hmore.ends (Or.inl rfl) rest)
      have hmore := ih fuel (by omega)
      rw [List.nil_append] at hitem
      simp only [List.append_assoc]
      rw [readArrayItems, nextElement_item hgap hlead begins]
      simp only [bind, Except.bind, hitem, hmore]
      rfl

theorem takes_readArray {α : Type} {Item : α → Bytes → Prop} {item : Reader α} {xs : List α} {s : Bytes}
    (h : ArrayOf Item xs s) (each : ∀ x text, Item x text → Begins text ∧ Takes item text x) :
    Takes (readArray item) s xs := by
  intro blanks rest blank _
  obtain @⟨more, items⟩ := h
  have hlength := items.length_le
  have hitems := readArrayItems_items items each rest ((more ++ rest).length + 1) (by
    rw [List.length_append]
    omega)
  simp only [readArray, List.cons_append, skipBlank_append blank (show isBlank 0x5b = false by decide),
    if_true, hitems]

/-! ## Records -/

variable {δ : Type}

/-- Members that fill in a record, each field at most once, with others between them. -/
inductive Collects (shape : Shape δ) : δ → List (String × Bytes) → δ → Prop where
  | done (record : δ) : Collects shape record [] record
  | known {record record' final : δ} {m : String × Bytes} {others : List (String × Bytes)}
      {field : Field δ} (find : shape.fields.find? (·.name = m.1) = some field)
      (unset : field.isSet record = false) (takes : Takes (field.read record) m.2 record')
      (more : Collects shape record' others final) : Collects shape record (m :: others) final
  | other {record final : δ} {m : String × Bytes} {others : List (String × Bytes)}
      (find : shape.fields.find? (·.name = m.1) = none) (value : Value m.2)
      (more : Collects shape record others final) : Collects shape record (m :: others) final

/-- The steps to a member and, after its name, over its colon. -/
theorem Member.steps {inner value text gap lead : Bytes}
    (member : Member (0x22 :: (inner ++ [0x22]), value) text) (hgap : Gap gap) (hlead : Gap lead)
    (first : Bool) (rest : Bytes) :
    ∃ after s, Gap after ∧
      nextMember first (gap ++ (separator first ++ (lead ++ (text ++ rest)))) =
        .ok (some (inner ++ 0x22 :: s)) ∧
      skipColon s = .ok ((), after ++ (value ++ rest)) := by
  obtain @⟨_, _, before, after, hbefore, hafter⟩ := member
  have hnext := nextMember_separator hlead.blanks first
    (inner ++ 0x22 :: (before ++ 0x3a :: (after ++ (value ++ rest))))
  refine ⟨after, before ++ 0x3a :: (after ++ (value ++ rest)), hafter, ?_,
    skipColon_blanks hbefore.blanks _⟩
  rw [nextMember_blanks hgap.blanks]
  simp only [List.append_assoc, List.cons_append, List.nil_append]
  exact hnext

/-- The members of an object are read one after the other, up to its end. -/
theorem readMembers_items {shape : Shape δ} {first : Bool} {members : List (String × Bytes)} {s : Bytes}
    (items : Items Named 0x7d first members s) (rest : Bytes) :
    ∀ {record final : δ} (fuel : Nat), Collects shape record members final → shape.Complete final →
      members.length < fuel → shape.readMembers fuel first record (s ++ rest) = .ok (final, rest) := by
  induction items with
  | @done first gap hgap =>
    intro record final fuel collects complete enough
    obtain ⟨⟩ := collects
    cases fuel with
    | zero => omega
    | succ fuel =>
      rw [Shape.Complete] at complete
      rw [List.append_assoc, List.singleton_append, Shape.readMembers, nextMember_close hgap.blanks]
      simp only [bind, Except.bind, pure, Except.pure, complete,
        pastClose_append hgap.blanks (show isBlank 0x7d = false by decide)]
  | @item first m members gap lead text more hgap hlead named hmore ih =>
    intro record final fuel collects complete enough
    cases fuel with
    | zero => omega
    | succ fuel =>
      rw [List.length_cons] at enough
      obtain @⟨name, written, value, text, ⟨spells⟩, member⟩ := named
      obtain ⟨after, s, hafter, hnext, hcolon⟩ := member.steps hgap hlead first (more ++ rest)
      have hname := readString_spells spells s
      have ends := hmore.ends (Or.inr rfl) rest
      simp only [List.append_assoc]
      rw [Shape.readMembers, hnext]
      simp only [bind, Except.bind, hname]
      cases collects with
      | known find unset takes collects =>
        have hvalue := takes after (more ++ rest) hafter.blanks ends
        simp only [find, unset, hcolon, hvalue]
        exact ih fuel collects complete (by omega)
      | other find hany collects =>
        have hvalue := takes_skipAny hany after (more ++ rest) hafter.blanks ends
        simp only [find, hcolon, hvalue]
        exact ih fuel collects complete (by omega)

/-- An object whose members fill in a record is read as that record. -/
theorem takes_read {shape : Shape δ} {members : List (String × Bytes)} {s : Bytes} {final : δ}
    (object : ObjectOf members s) (collects : Collects shape shape.empty members final)
    (complete : shape.Complete final) : Takes shape.read s final := by
  intro blanks rest blank _
  obtain @⟨more, items⟩ := object
  have hlength := items.length_le
  have hmembers := readMembers_items items rest ((more ++ rest).length + 1) collects complete (by
    rw [List.length_append]
    omega)
  simp only [Shape.read, List.cons_append, skipBlank_append blank (show isBlank 0x7b = false by decide),
    if_true, hmembers]

theorem Record.begins {known : List (String × Bytes)} {s : Bytes} (record : Record known s) :
    Begins s := by
  obtain ⟨_, _, ⟨_⟩, -, -⟩ := record
  exact ⟨0x7b, _, rfl, by decide⟩

/-- A way to fill in the fields of a record from known members: `filled` is the record after some of them
have been passed, and exactly their fields are set in it. -/
structure Filling (shape : Shape δ) (known : List (String × Bytes)) (filled : List String → δ) : Prop where
  empty : filled [] = shape.empty
  names : known.map Prod.fst = shape.fields.map Field.name
  distinct : (known.map Prod.fst).Nodup
  isSet : ∀ field ∈ shape.fields, ∀ passed, field.isSet (filled passed) = decide (field.name ∈ passed)
  takes : ∀ field ∈ shape.fields, ∀ passed value, (field.name, value) ∈ known →
    Takes (field.read (filled passed)) value (filled (field.name :: passed))

namespace Filling

variable {shape : Shape δ} {known : List (String × Bytes)} {filled : List String → δ}

/-- Members none of which is known and has been passed, or comes twice, fill in the fields they name. -/
theorem collects (filling : Filling shape known filled) {members : List (String × Bytes)} :
    ∀ passed, (∀ m ∈ members, m.1 ∈ known.map Prod.fst → m ∈ known ∧ m.1 ∉ passed) →
      (∀ m ∈ members, m.1 ∉ known.map Prod.fst → Value m.2) →
      members.Pairwise (fun m m' => m.1 = m'.1 → m.1 ∉ known.map Prod.fst) →
      ∃ all, Collects shape (filled passed) members (filled all) ∧
        ∀ name, name ∈ passed ∨ name ∈ known.map Prod.fst ∧ name ∈ members.map Prod.fst → name ∈ all := by
  induction members with
  | nil =>
    intro passed _ _ _
    exact ⟨passed, .done _, by simp⟩
  | cons m members ih =>
    intro passed fits values distinct
    obtain ⟨apart, distinct⟩ := List.pairwise_cons.mp distinct
    have values' : ∀ m' ∈ members, m'.1 ∉ known.map Prod.fst → Value m'.2 :=
      fun m' hm' => values m' (List.mem_cons_of_mem m hm')
    cases find : shape.fields.find? (·.name = m.1) with
    | none =>
      have unknown : m.1 ∉ known.map Prod.fst := by
        rw [filling.names]
        rintro hm
        obtain ⟨field, hfield, hname⟩ := List.mem_map.mp hm
        exact absurd hname (by simpa using List.find?_eq_none.mp find field hfield)
      obtain ⟨all, hall, mem⟩ :=
        ih passed (fun m' hm' => fits m' (List.mem_cons_of_mem m hm')) values' distinct
      refine ⟨all, .other find (values m List.mem_cons_self unknown) hall, ?_⟩
      rintro name (hpassed | ⟨hknown, hname⟩)
      · exact mem name (Or.inl hpassed)
      · rw [List.map_cons] at hname
        obtain rfl | hname := List.mem_cons.mp hname
        · exact absurd hknown unknown
        · exact mem name (Or.inr ⟨hknown, hname⟩)
    | some field =>
      have hfield := List.mem_of_find?_eq_some find
      have hname : field.name = m.1 := by simpa using List.find?_some find
      have hknown : m.1 ∈ known.map Prod.fst := by
        rw [filling.names]
        exact hname ▸ List.mem_map_of_mem hfield
      obtain ⟨listed, fresh⟩ := fits m List.mem_cons_self hknown
      have unset : field.isSet (filled passed) = false := by
        rw [filling.isSet field hfield, hname]
        exact decide_eq_false fresh
      obtain ⟨all, hall, mem⟩ := ih (field.name :: passed) (by
        intro m' hm' hknown'
        obtain ⟨listed', fresh'⟩ := fits m' (List.mem_cons_of_mem m hm') hknown'
        refine ⟨listed', ?_⟩
        rw [List.mem_cons, not_or, hname]
        exact ⟨fun same => apart m' hm' same.symm hknown, fresh'⟩) values' distinct
      refine ⟨all, .known find unset (filling.takes field hfield passed m.2 (hname ▸ listed)) hall, ?_⟩
      rintro name (hpassed | ⟨hknown', hname'⟩)
      · exact mem name (Or.inl (List.mem_cons_of_mem _ hpassed))
      · rw [List.map_cons] at hname'
        obtain rfl | hname' := List.mem_cons.mp hname'
        · exact mem _ (Or.inl (hname ▸ List.mem_cons_self))
        · exact mem name (Or.inr ⟨hknown', hname'⟩)

/-- A record is read from its members in any order, with any others between them. -/
theorem takes_record (filling : Filling shape known filled) {s : Bytes} (record : Record known s) :
    ∃ all, (∀ field ∈ shape.fields, field.name ∈ all) ∧ Takes shape.read s (filled all) := by
  obtain ⟨members, others, object, perm, unknown⟩ := record
  have fits : ∀ m ∈ members, m.1 ∈ known.map Prod.fst → m ∈ known ∧ m.1 ∉ ([] : List String) := by
    intro m hm hknown
    rcases List.mem_append.mp (perm.mem_iff.mp hm) with listed | other
    · exact ⟨listed, List.not_mem_nil⟩
    · exact absurd hknown (unknown m other).1
  have values : ∀ m ∈ members, m.1 ∉ known.map Prod.fst → Value m.2 := by
    intro m hm notKnown
    rcases List.mem_append.mp (perm.mem_iff.mp hm) with listed | other
    · exact absurd (List.mem_map_of_mem listed) notKnown
    · exact (unknown m other).2
  have distinct : members.Pairwise fun m m' => m.1 = m'.1 → m.1 ∉ known.map Prod.fst := by
    refine (perm.pairwise_iff fun h same => same ▸ h same.symm).mpr ?_
    refine List.pairwise_append.mpr ⟨?_, ?_, ?_⟩
    · exact (List.pairwise_map.mp filling.distinct).imp fun differ same => absurd same differ
    · exact List.Pairwise.imp_of_mem (fun hm _ _ _ => (unknown _ hm).1)
        (List.pairwise_of_forall fun _ _ => trivial)
    · intro m _ m' hm' same
      exact same ▸ (unknown m' hm').1
  obtain ⟨all, hall, mem⟩ := filling.collects [] fits values distinct
  have every : ∀ field ∈ shape.fields, field.name ∈ all := by
    intro field hfield
    have hknown : field.name ∈ known.map Prod.fst := filling.names ▸ List.mem_map_of_mem hfield
    refine mem _ (Or.inr ⟨hknown, ?_⟩)
    rw [(perm.map Prod.fst).mem_iff, List.map_append]
    exact List.mem_append_left _ hknown
  rw [filling.empty] at hall
  refine ⟨all, every, takes_read object hall ?_⟩
  rw [Shape.Complete, List.find?_eq_none]
  intro field hfield
  simp [filling.isSet field hfield, every field hfield]

end Filling

/-! ## Whole texts -/

/-- A value with nothing but gaps around it is a whole text. -/
theorem Takes.all {α : Type} {reader : Reader α} {text : String} {s : Bytes} {x : α}
    (takes : Takes reader s x) (holds : Holds text s) : readAll reader (Utf8.encode text) = .ok x := by
  obtain ⟨before, after, hbefore, hafter, htext⟩ := holds
  have hread := takes before after hbefore.blanks (ends_gap hafter)
  have hend : skipBlank after = [] := by
    rw [← List.append_nil after, skipBlank_blanks hafter.blanks]
    rfl
  rw [htext, readAll, hread]
  simp only [bind, Except.bind, hend]
  rfl

end BenchHarness.Json
