import BenchHarness.Config.Basic
import BenchHarness.Proofs.TomlKeys

/-!
# Settings laid over settings

A table whose keys are all different is laid over another one key by key: each key has what it had, or what
is laid over that (`Setting.find?_overlayMembers`). A section whose keys are all different is read as its
fields read their members one by one (`Setting.get_of_readMembers`).
-/

namespace BenchHarness

namespace Setting

/-! ## Laying tables over tables -/

theorem find?_cons (key k : String) (v : Setting) (rest : List (String × Setting)) :
    find? ((k, v) :: rest) key = if k = key then some v else find? rest key := by
  unfold find?
  rw [List.lookup_cons]
  by_cases same : k = key
  · simp [same]
  · rw [if_neg same, beq_false_of_ne (Ne.symm same)]

theorem find?_put (key k : String) (value : Setting) (members : List (String × Setting)) :
    find? (put k value members) key = if k = key then some value else find? members key := by
  induction members with
  | nil => exact find?_cons key k value []
  | cons member rest ih =>
    obtain ⟨k', v⟩ := member
    rw [put]
    by_cases here : k' = k
    · rw [if_pos here, find?_cons, find?_cons, here]
      split <;> rfl
    · rw [if_neg here, find?_cons, find?_cons, ih]
      by_cases found : k' = key
      · rw [if_pos found, if_pos found, if_neg (fun same => here (found.trans same.symm))]
      · rw [if_neg found, if_neg found]

theorem find?_eq_none {members : List (String × Setting)} {key : String}
    (absent : key ∉ members.map (·.1)) : find? members key = none := by
  induction members with
  | nil => rfl
  | cons member rest ih =>
    obtain ⟨k, v⟩ := member
    rw [List.map_cons, List.mem_cons, not_or] at absent
    rw [find?_cons, if_neg (Ne.symm absent.1), ih absent.2]

theorem nodup_put {members : List (String × Setting)} (distinct : (members.map (·.1)).Nodup)
    (key : String) (value : Setting) : ((put key value members).map (·.1)).Nodup := by
  rw [@Toml.map_fst_of_put Setting put (fun _ _ => rfl) (fun _ _ _ _ _ => rfl) key value members]
  exact Toml.nodup_append_of_not_mem distinct key

theorem nodup_overlayMembers {new : List (String × Setting)} :
    ∀ {old : List (String × Setting)}, (old.map (·.1)).Nodup →
      ((overlayMembers old new).map (·.1)).Nodup := by
  induction new with
  | nil =>
    intro old distinct
    rw [overlayMembers]
    exact distinct
  | cons member rest ih =>
    intro old distinct
    rw [overlayMembers]
    exact ih (nodup_put distinct _ _)

/-- A key has what is laid over it, or what it had. -/
theorem find?_overlayMembers {new : List (String × Setting)} (distinct : (new.map (·.1)).Nodup)
    (key : String) :
    ∀ old, find? (overlayMembers old new) key =
      match find? new key with
      | some s => some (overlay ((find? old key).getD .unset) s)
      | none => find? old key := by
  induction new with
  | nil =>
    intro old
    rw [overlayMembers]
    rfl
  | cons member rest ih =>
    intro old
    obtain ⟨k, s⟩ := member
    obtain ⟨fresh, distinct⟩ := List.nodup_cons.mp distinct
    rw [overlayMembers, ih distinct, find?_put, find?_cons]
    by_cases same : k = key
    · rw [if_pos same, if_pos same, find?_eq_none (same ▸ fresh), same]
    · rw [if_neg same, if_neg same]

/-- Keys that are no paths are laid over the keys of a table. -/
theorem overlaySource_eq {members : List (String × Setting)}
    (plain : ∀ member ∈ members, keyPath member.1 = [.key member.1]) (source : Option String) :
    ∀ old, overlaySource (.table source old) members = .table source (overlayMembers old members) := by
  induction members with
  | nil =>
    intro old
    rw [overlayMembers]
    rfl
  | cons member rest ih =>
    intro old
    obtain ⟨k, s⟩ := member
    obtain ⟨hkey, hrest⟩ := List.forall_mem_cons.mp plain
    have hstep : overlaySource (.table source old) ((k, s) :: rest) =
        overlaySource (changeAt (overlay · s) (keyPath k) (.table source old)) rest := rfl
    rw [hstep, hkey, overlayMembers]
    exact ih hrest _

/-! ## Documents as settings -/

theorem ofItems_eq (source : Option String) (items : List Toml.Value) :
    ofItems source items = items.map (ofValue source) := by
  induction items with
  | nil => rfl
  | cons value rest ih => rw [ofItems, ih, List.map_cons]

theorem ofMembers_eq (source : Option String) (members : Toml.Members) :
    ofMembers source members = members.map fun member => (member.1, ofValue source member.2) := by
  induction members with
  | nil => rfl
  | cons member rest ih =>
    obtain ⟨key, value⟩ := member
    rw [ofMembers, ih, List.map_cons]

theorem find?_ofMembers (source : Option String) (members : Toml.Members) (key : String) :
    find? (ofMembers source members) key = (members.find? key).map (ofValue source) := by
  rw [ofMembers_eq]
  induction members with
  | nil => rfl
  | cons member rest ih =>
    unfold find? Toml.Members.find? at ih ⊢
    rw [List.map_cons, List.lookup_cons, List.lookup_cons]
    split
    · rfl
    · exact ih

/-! ## Reading sections -/

section

variable {δ : Type} {fields : List (Field δ)} {key : String}

/-- A table can be read if each of the fields in it can. -/
theorem exists_readMembers {members : List (String × Setting)}
    (readable : ∀ field ∈ fields, ∀ value, (field.name, value) ∈ members →
      ∀ d, ∃ d', field.read (memberKey key field.name) value d = .ok d') :
    ∀ d, ∃ d', readMembers key fields members d = .ok d' := by
  induction members with
  | nil => exact fun d => ⟨d, rfl⟩
  | cons member rest ih =>
    intro d
    obtain ⟨name, value⟩ := member
    have hrest := ih fun field hfield value hvalue =>
      readable field hfield value (List.mem_cons_of_mem _ hvalue)
    rw [readMembers]
    cases hfind : fields.find? (·.name = name) with
    | none => exact hrest d
    | some field =>
      obtain rfl : field.name = name := by simpa using List.find?_some hfind
      obtain ⟨d', hread⟩ := readable field (List.mem_of_find?_eq_some hfind) value List.mem_cons_self d
      obtain ⟨d'', hread'⟩ := hrest d'
      exact ⟨d'', by simp only [hread, bind, Except.bind, hread']⟩

/-- A part of what is read is what its field reads from its member, which is the only one. -/
theorem get_of_readMembers {α : Type} (get : δ → α) {name : String} {value : Setting} {a : α}
    (step : ∀ field ∈ fields, ∀ key other d d', field.read key other d = .ok d' →
      (field.name = name ∧ (other = value → get d' = a)) ∨ (field.name ≠ name ∧ get d' = get d))
    (known : ∃ field ∈ fields, field.name = name) {members : List (String × Setting)}
    (only : ∀ other, (name, other) ∈ members → other = value) :
    ∀ {d d'}, readMembers key fields members d = .ok d' →
      get d' = if name ∈ members.map (·.1) then a else get d := by
  induction members with
  | nil =>
    intro d d' h
    obtain rfl : d = d' := Except.ok.inj h
    rfl
  | cons member rest ih =>
    intro d d' h
    obtain ⟨k, v⟩ := member
    have hrest := @ih fun other hother => only other (List.mem_cons_of_mem _ hother)
    rw [readMembers] at h
    simp only [List.map_cons, List.mem_cons]
    cases hfind : fields.find? (·.name = k) with
    | none =>
      rw [hfind] at h
      have hk : name ≠ k := by
        rintro rfl
        obtain ⟨field, hfield, hname⟩ := known
        simpa [hname] using List.find?_eq_none.mp hfind field hfield
      simp only [hrest h, hk, false_or]
    | some field =>
      obtain rfl : field.name = k := by simpa using List.find?_some hfind
      have hfield := List.mem_of_find?_eq_some hfind
      rw [hfind] at h
      cases hread : field.read (memberKey key field.name) v d with
      | error e => simp [hread, bind, Except.bind] at h
      | ok d'' =>
        simp only [hread, bind, Except.bind] at h
        -- what a later member gives is the same, for there is none of the name but this one
        rcases step field hfield _ v d d'' hread with ⟨rfl, hget⟩ | ⟨hname, hget⟩
        · simp [hrest h, hget (only v List.mem_cons_self)]
        · simp only [hrest h, hget, Ne.symm hname, false_or]

end

theorem readSection_of_table {δ : Type} {fields : List (Field δ)} {key wanted : String} {empty d : δ}
    {source : Option String} {members : List (String × Setting)}
    (h : readMembers key fields members empty = .ok d) (complete : ∀ field ∈ fields, field.isSet d = true) :
    readSection key wanted fields empty (.table source members) = .ok d := by
  have hnone : fields.find? (! ·.isSet d) = none := by
    rw [List.find?_eq_none]
    intro field hfield
    simp [complete field hfield]
  simp only [readSection, h, bind, Except.bind, hnone]
  rfl

theorem readTexts_of_texts (key : String) (source : Option String) (texts : List String) :
    readTexts key (.list source (texts.map .text)) = .ok texts := by
  have hread : (texts.map Setting.text).mapIdx (fun n item => readText (itemKey key n) item) =
      texts.map .ok := by
    refine List.ext_getElem (by simp) fun n h h' => ?_
    simp [readText]
  rw [readTexts, hread, List.mapM_map]
  exact List.mapM_pure.trans (congrArg Except.ok (List.map_id' texts))

end Setting

end BenchHarness
