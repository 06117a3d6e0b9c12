import BenchHarness.Toml.Document
import Mathlib.Data.List.Nodup

/-!
# Keys of TOML documents

A document that can be read gives every table its keys once: whatever a line adds, it adds under a new key
or in the place of an old one (`Toml.tidy_of_parse?`).
-/

namespace BenchHarness.Toml

/-- What is put under a key stands in the place of the key, or in a new place at the end. -/
theorem map_fst_of_put {α : Type} {put : String → α → List (String × α) → List (String × α)}
    (empty : ∀ key value, put key value [] = [(key, value)])
    (step : ∀ key value k v rest, put key value ((k, v) :: rest) =
      if k = key then (k, value) :: rest else (k, v) :: put key value rest)
    (key : String) (value : α) (members : List (String × α)) :
    (put key value members).map (·.1) =
      if key ∈ members.map (·.1) then members.map (·.1) else members.map (·.1) ++ [key] := by
  induction members with
  | nil => simp [empty]
  | cons member rest ih =>
    obtain ⟨k, v⟩ := member
    rw [step]
    by_cases same : k = key
    · simp [same]
    · rw [if_neg same, List.map_cons, ih]
      have hkey : key ∈ ((k, v) :: rest).map (·.1) ↔ key ∈ rest.map (·.1) := by
        simp [Ne.symm same]
      simp only [hkey]
      split <;> rfl

theorem nodup_append_of_not_mem {keys : List String} (distinct : keys.Nodup) (key : String) :
    (if key ∈ keys then keys else keys ++ [key]).Nodup := by
  split
  · exact distinct
  · next fresh => exact List.concat_eq_append ▸ distinct.concat fresh

/-- In a table no two keys are equal, all the way down. -/
inductive Value.Tidy : Value → Prop where
  | plain {v : Value} (noArray : ∀ ofTables items, v ≠ .array ofTables items)
      (noTable : ∀ origin members, v ≠ .table origin members) : Tidy v
  | array {ofTables : Bool} {items : List Value} (values : ∀ item ∈ items, Tidy item) :
      Tidy (.array ofTables items)
  | table {origin : TableOrigin} {members : Members} (distinct : (members.map (·.1)).Nodup)
      (values : ∀ member ∈ members, Tidy member.2) : Tidy (.table origin members)

namespace Members

/-- The members of a tidy table. -/
structure Tidy (members : Members) : Prop where
  distinct : (members.map (·.1)).Nodup
  values : ∀ member ∈ members, member.2.Tidy

theorem Tidy.nil : Tidy [] := ⟨List.nodup_nil, by simp⟩

theorem map_fst_put (key : String) (value : Value) (members : Members) :
    (members.put key value).map (·.1) =
      if key ∈ members.map (·.1) then members.map (·.1) else members.map (·.1) ++ [key] :=
  @map_fst_of_put Value Members.put (fun _ _ => rfl) (fun _ _ _ _ _ => rfl) key value members

theorem mem_put {key : String} {value : Value} {members : Members} {member : String × Value}
    (h : member ∈ members.put key value) : member = (key, value) ∨ member ∈ members := by
  induction members with
  | nil => exact .inl (List.mem_singleton.mp h)
  | cons first rest ih =>
    obtain ⟨k, v⟩ := first
    rw [put] at h
    split at h
    · next same =>
      rcases List.mem_cons.mp h with h | h
      · exact .inl (same ▸ h)
      · exact .inr (List.mem_cons_of_mem _ h)
    · rcases List.mem_cons.mp h with h | h
      · exact .inr (h ▸ List.mem_cons_self)
      · exact (ih h).imp_right (List.mem_cons_of_mem _)

theorem Tidy.put {members : Members} (tidy : members.Tidy) {key : String} {value : Value}
    (hvalue : value.Tidy) : (members.put key value).Tidy := by
  constructor
  · rw [map_fst_put]
    exact nodup_append_of_not_mem tidy.distinct key
  · intro member hmember
    rcases mem_put hmember with rfl | hmember
    · exact hvalue
    · exact tidy.values member hmember

theorem Tidy.find? {members : Members} (tidy : members.Tidy) {key : String} {value : Value}
    (h : members.find? key = some value) : value.Tidy := by
  obtain ⟨before, after, rfl, -⟩ := List.lookup_eq_some_iff.mp h
  exact tidy.values (key, value) (by simp)

end Members

theorem Value.Tidy.members {origin : TableOrigin} {members : Members}
    (tidy : (Value.table origin members).Tidy) : members.Tidy := by
  cases tidy with
  | plain noArray noTable => exact absurd rfl (noTable _ _)
  | table distinct values => exact ⟨distinct, values⟩

theorem Members.Tidy.table {members : Members} (tidy : members.Tidy) (origin : TableOrigin) :
    (Value.table origin members).Tidy := .table tidy.distinct tidy.values

theorem Value.Tidy.items {ofTables : Bool} {items : List Value}
    (tidy : (Value.array ofTables items).Tidy) : ∀ item ∈ items, item.Tidy := by
  cases tidy with
  | plain noArray noTable => exact absurd rfl (noArray _ _)
  | array values => exact values

namespace Members

variable {members : Members} (tidy : members.Tidy) {key : String} {origin : TableOrigin}
  {old inner : Members}

include tidy

/-- The table of a key is changed. -/
theorem Tidy.putTable (hold : members.find? key = some (.table origin old))
    (hinner : old.Tidy → inner.Tidy) (origin' : TableOrigin) :
    (members.put key (.table origin' inner)).Tidy :=
  tidy.put ((hinner (tidy.find? hold).members).table origin')

/-- The last table of an array is changed. -/
theorem Tidy.putLast {items : List Value} (hitems : members.find? key = some (.array true items))
    (hlast : items.getLast? = some (.table origin old)) (hinner : old.Tidy → inner.Tidy) :
    (members.put key (.array true (items.dropLast ++ [.table origin inner]))).Tidy := by
  have htidy := (tidy.find? hitems).items
  have hold := (htidy _ (List.mem_of_getLast? hlast)).members
  refine tidy.put (.array fun item hitem => ?_)
  rcases List.mem_append.mp hitem with hitem | hitem
  · exact htidy item (List.dropLast_subset items hitem)
  · rw [List.mem_singleton.mp hitem]
    exact (hinner hold).table origin

end Members

/-! ## Adding to a document -/

theorem defineKey_tidy {value : Value} (hvalue : value.Tidy) {keys : List String} :
    ∀ {members result : Members}, members.Tidy → defineKey value keys members = some result →
      result.Tidy := by
  induction keys with
  | nil =>
    intro members result _ h
    cases h
  | cons key more ih =>
    intro members result tidy h
    cases more with
    | nil =>
      simp only [defineKey] at h
      split at h
      · exact Option.some.inj h ▸ tidy.put hvalue
      · cases h
    | cons next more =>
      simp only [defineKey] at h
      split at h
      · obtain ⟨inner, hinner, rfl⟩ := Option.map_eq_some_iff.mp h
        exact tidy.put ((ih .nil hinner).table _)
      · next origin old hold =>
        split at h
        · obtain ⟨inner, hinner, rfl⟩ := Option.map_eq_some_iff.mp h
          exact tidy.putTable hold (fun hold => ih hold hinner) _
        · cases h
      · next items hitems =>
        split at h
        · next origin old hlast =>
          split at h
          · cases h
          · obtain ⟨inner, hinner, rfl⟩ := Option.map_eq_some_iff.mp h
            exact tidy.putLast hitems hlast fun hold => ih hold hinner
        · cases h
      · cases h

theorem within_tidy {change : Members → Option Members}
    (hchange : ∀ {members result}, members.Tidy → change members = some result → result.Tidy)
    {keys : List String} :
    ∀ {members result : Members}, members.Tidy → within change keys members = some result →
      result.Tidy := by
  induction keys with
  | nil => exact hchange
  | cons key more ih =>
    intro members result tidy h
    simp only [within] at h
    split at h
    · obtain ⟨inner, hinner, rfl⟩ := Option.map_eq_some_iff.mp h
      exact tidy.put ((ih .nil hinner).table _)
    · cases h
    · next origin old _ hold =>
      obtain ⟨inner, hinner, rfl⟩ := Option.map_eq_some_iff.mp h
      exact tidy.putTable hold (fun hold => ih hold hinner) _
    · next items hitems =>
      split at h
      · next origin old hlast =>
        obtain ⟨inner, hinner, rfl⟩ := Option.map_eq_some_iff.mp h
        exact tidy.putLast hitems hlast fun hold => ih hold hinner
      · cases h
    · cases h

theorem openTable_tidy {key : String} {members result : Members} (tidy : members.Tidy)
    (h : openTable key members = some result) : result.Tidy := by
  unfold openTable at h
  split at h
  · exact Option.some.inj h ▸ tidy.put (Members.Tidy.nil.table _)
  · next inner hinner =>
    rw [← Option.some.inj h]
    -- the table moves to the end, so that its key is taken out first
    constructor
    · have hrest : ((members.filter (·.1 ≠ key)).map (·.1)).Nodup :=
        tidy.distinct.sublist (List.filter_sublist.map _)
      rw [List.map_append, List.map_singleton, ← List.concat_eq_append]
      exact hrest.concat (by simp)
    · intro member hmember
      rcases List.mem_append.mp hmember with hmember | hmember
      · exact tidy.values member (List.mem_of_mem_filter hmember)
      · rw [List.mem_singleton.mp hmember]
        exact (tidy.find? hinner).members.table _
  · cases h

theorem openElement_tidy {key : String} {members result : Members} (tidy : members.Tidy)
    (h : openElement key members = some result) : result.Tidy := by
  have hnew : (Value.table .header []).Tidy := Members.Tidy.nil.table _
  unfold openElement at h
  split at h
  · exact Option.some.inj h ▸ tidy.put (.array (by simpa using hnew))
  · next items hitems =>
    refine Option.some.inj h ▸ tidy.put (.array fun item hitem => ?_)
    rcases List.mem_append.mp hitem with hitem | hitem
    · exact (tidy.find? hitems).items item hitem
    · exact List.mem_singleton.mp hitem ▸ hnew
  · cases h

/-! ## Reading a document -/

theorem scalar?_tidy {word : List Char} {value : Value} (h : scalar? word = some value) :
    value.Tidy := by
  unfold scalar? at h
  split at h
  · exact Option.some.inj h ▸ .plain (by simp) (by simp)
  split at h
  · exact Option.some.inj h ▸ .plain (by simp) (by simp)
  split at h
  · exact Option.some.inj h ▸ .plain (by simp) (by simp)
  split at h
  · exact Option.some.inj h ▸ .plain (by simp) (by simp)
  · obtain ⟨text, -, rfl⟩ := Option.map_eq_some_iff.mp h
    exact .plain (by simp) (by simp)

/-- Values are tidy however deep they go; so are the members of a table in braces, which are added to
those read before. -/
theorem take_tidy (fuel : Nat) :
    (∀ depth s value rest, takeValue fuel depth s = some (value, rest) → value.Tidy) ∧
    (∀ depth s items rest, takeItems fuel depth s = some (items, rest) → ∀ item ∈ items, item.Tidy) ∧
    ∀ depth members s result rest, members.Tidy →
      takeMembers fuel depth members s = some (result, rest) → Members.Tidy result := by
  induction fuel with
  | zero => simp [takeValue, takeItems, takeMembers]
  | succ fuel ih =>
    obtain ⟨hvalue, hitems, hmembers⟩ := ih
    refine ⟨?value, ?items, ?members⟩
    case value =>
      intro depth s value rest h
      simp only [takeValue] at h
      split at h
      · split at h
        · cases h
        · obtain ⟨⟨items, rest'⟩, hread, ⟨⟩⟩ := Option.map_eq_some_iff.mp h
          exact .array (hitems _ _ _ _ hread)
      · split at h
        · cases h
        · obtain ⟨⟨members, rest'⟩, hread, ⟨⟩⟩ := Option.map_eq_some_iff.mp h
          exact (hmembers _ _ _ _ _ .nil hread).table _
      · obtain ⟨⟨text, rest'⟩, -, ⟨⟩⟩ := Option.map_eq_some_iff.mp h
        exact .plain (by simp) (by simp)
      · obtain ⟨⟨text, rest'⟩, -, ⟨⟩⟩ := Option.map_eq_some_iff.mp h
        exact .plain (by simp) (by simp)
      · obtain ⟨value', hread, ⟨⟩⟩ := Option.map_eq_some_iff.mp h
        exact scalar?_tidy hread
    case items =>
      intro depth s items rest h
      simp only [takeItems] at h
      split at h
      · obtain ⟨rfl, -⟩ := Prod.mk.inj (Option.some.inj h)
        simp
      · obtain ⟨⟨value, after⟩, hread, h⟩ := Option.bind_eq_some_iff.mp h
        have htidy := hvalue _ _ _ _ hread
        simp only [] at h
        split at h
        · obtain ⟨⟨more, rest'⟩, hmore, ⟨⟩⟩ := Option.bind_eq_some_iff.mp h
          exact List.forall_mem_cons.mpr ⟨htidy, hitems _ _ _ _ hmore⟩
        · obtain ⟨rfl, -⟩ := Prod.mk.inj (Option.some.inj h)
          simpa using htidy
        · cases h
    case members =>
      intro depth members s result rest tidy h
      simp only [takeMembers] at h
      split at h
      · obtain ⟨rfl, -⟩ := Prod.mk.inj (Option.some.inj h)
        exact tidy
      · obtain ⟨⟨key, after⟩, -, h⟩ := Option.bind_eq_some_iff.mp h
        obtain ⟨after, -, h⟩ := Option.bind_eq_some_iff.mp h
        obtain ⟨⟨value, after⟩, hread, h⟩ := Option.bind_eq_some_iff.mp h
        obtain ⟨added, hadded, h⟩ := Option.bind_eq_some_iff.mp h
        -- a member in braces is added to those before it, which are tidy by then
        have htidy := defineKey_tidy (hvalue _ _ _ _ hread) tidy hadded
        simp only [] at h
        split at h
        · exact hmembers _ _ _ _ _ htidy h
        · obtain ⟨rfl, -⟩ := Prod.mk.inj (Option.some.inj h)
          exact htidy
        · cases h

theorem openHeader_tidy {key : List String} {d result : Draft} (tidy : d.members.Tidy)
    (h : openHeader key d = some result) : result.members.Tidy := by
  unfold openHeader at h
  split at h
  · cases h
  · obtain ⟨members, hmembers, rfl⟩ := Option.map_eq_some_iff.mp h
    exact within_tidy openTable_tidy tidy hmembers

theorem openArrayHeader_tidy {key : List String} {d result : Draft} (tidy : d.members.Tidy)
    (h : openArrayHeader key d = some result) : result.members.Tidy := by
  unfold openArrayHeader at h
  split at h
  · cases h
  · obtain ⟨members, hmembers, rfl⟩ := Option.map_eq_some_iff.mp h
    exact within_tidy openElement_tidy tidy hmembers

theorem takeLine_tidy {d result : Draft} {s rest : List Char} (tidy : d.members.Tidy)
    (h : takeLine d s = some (result, rest)) : result.members.Tidy := by
  unfold takeLine at h
  split at h
  · obtain ⟨⟨key, after⟩, -, h⟩ := Option.bind_eq_some_iff.mp h
    obtain ⟨after, -, h⟩ := Option.bind_eq_some_iff.mp h
    obtain ⟨after, -, h⟩ := Option.bind_eq_some_iff.mp h
    obtain ⟨d', hopen, ⟨⟩⟩ := Option.bind_eq_some_iff.mp h
    exact openArrayHeader_tidy tidy hopen
  · obtain ⟨⟨key, after⟩, -, h⟩ := Option.bind_eq_some_iff.mp h
    obtain ⟨after, -, h⟩ := Option.bind_eq_some_iff.mp h
    obtain ⟨d', hopen, ⟨⟩⟩ := Option.bind_eq_some_iff.mp h
    exact openHeader_tidy tidy hopen
  · obtain ⟨⟨key, after⟩, -, h⟩ := Option.bind_eq_some_iff.mp h
    obtain ⟨after, -, h⟩ := Option.bind_eq_some_iff.mp h
    obtain ⟨⟨value, after⟩, hread, h⟩ := Option.bind_eq_some_iff.mp h
    obtain ⟨members, hmembers, ⟨⟩⟩ := Option.bind_eq_some_iff.mp h
    exact within_tidy (defineKey_tidy ((take_tidy _).1 _ _ _ _ hread)) tidy hmembers

theorem takeLines_tidy (fuel : Nat) :
    ∀ {d : Draft} {s : List Char} {members : Members}, d.members.Tidy →
      takeLines fuel d s = some members → members.Tidy := by
  induction fuel with
  | zero =>
    intro d s members _ h
    cases h
  | succ fuel ih =>
    intro d s members tidy h
    simp only [takeLines] at h
    split at h
    · exact Option.some.inj h ▸ tidy
    · obtain ⟨⟨d', after⟩, hline, h⟩ := Option.bind_eq_some_iff.mp h
      obtain ⟨after', -, h⟩ := Option.bind_eq_some_iff.mp h
      exact ih (takeLine_tidy tidy hline) h

/-- A document gives each key of a table once. -/
theorem tidy_of_parse? {text : String} {members : Members} (h : parse? text = some members) :
    members.Tidy :=
  takeLines_tidy _ .nil h

end BenchHarness.Toml
