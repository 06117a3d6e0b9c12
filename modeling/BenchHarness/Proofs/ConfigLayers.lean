import BenchHarness.Proofs.ConfigFile
import BenchHarness.Proofs.Settings

/-!
# Layers of a configuration

A document that gives texts for some of the keys is laid over the default settings. What is read from the
result are the default texts with those of the document in their places (`Config.ofDocument_eq`), and these
are checked one after the other (`Config.Values.checked_eq`), so that the whole way from a file to a
configuration or to what is wrong with it is known (`Config.fromSources_layered`).
-/

namespace BenchHarness

namespace Toml.Value

/-- The text that a value is, if it is one. -/
def text? : Value → Option String
  | .string text => some text
  | _ => none

/-- The texts that an array consists of, if it does. -/
def texts? : Value → Option (List String)
  | .array _ items => items.mapM text?
  | _ => none

/-- The members of a table. -/
def members? : Value → Option Members
  | .table _ members => some members
  | _ => none

theorem text?_eq_some {value : Value} {text : String} (h : value.text? = some text) :
    value = .string text := by
  cases value <;> simp_all [text?]

theorem members?_eq_some {value : Value} {members : Members} (h : value.members? = some members) :
    ∃ origin, value = .table origin members := by
  cases value <;> simp_all [members?]

theorem strings_of_map_text? {items : List Value} :
    ∀ {texts : List String}, items.map text? = texts.map some → items = texts.map .string := by
  induction items with
  | nil =>
    intro texts h
    rw [List.map_eq_nil_iff.mp h.symm]
    rfl
  | cons item rest ih =>
    intro texts h
    obtain ⟨text, more, rfl, hitem, hrest⟩ := List.map_eq_cons_iff.mp h.symm
    rw [List.map_cons, text?_eq_some hitem.symm, ih hrest.symm]

theorem texts?_eq_some {value : Value} {texts : List String} (h : value.texts? = some texts) :
    ∃ ofTables, value = .array ofTables (texts.map .string) := by
  cases value with
  | array ofTables items =>
    refine ⟨ofTables, congrArg (Value.array ofTables) ?_⟩
    rw [texts?, Utf8.mapM_eq_some_iff] at h
    exact strings_of_map_text? h
  | _ => cases h

end Toml.Value

namespace Config

/-! ## Sections of a configuration -/

open Setting

theorem exists_of_stored {α δ : Type} {r : Except ConfigProblem α} {store : α → δ} {d : δ}
    (h : (do pure (store (← r)) : Except ConfigProblem δ) = .ok d) : ∃ a, r = .ok a ∧ d = store a := by
  cases r with
  | error e => cases h
  | ok a => exact ⟨a, rfl, (Except.ok.inj h).symm⟩

/-- What reading a field of the section on discovery does. -/
theorem discoveryField_cases {field : Setting.Field DiscoveryDraft} (h : field ∈ discoveryFields)
    {key : String} {s : Setting} {d d' : DiscoveryDraft} (hread : field.read key s d = .ok d') :
    (field.name = "entry-point" ∧
      ∃ text, s.readText key = .ok text ∧ d' = { d with entryPoint := some text }) ∨
    (field.name = "ancestor-segment" ∧
      ∃ text, s.readText key = .ok text ∧ d' = { d with ancestorSegment := some text }) ∨
    (field.name = "blacklist" ∧
      ∃ texts, s.readTexts key = .ok texts ∧ d' = { d with blacklist := some texts }) := by
  simp only [discoveryFields, List.mem_cons, List.not_mem_nil, or_false] at h
  rcases h with rfl | rfl | rfl
  · exact .inl ⟨rfl, exists_of_stored hread⟩
  · exact .inr (.inl ⟨rfl, exists_of_stored hread⟩)
  · exact .inr (.inr ⟨rfl, exists_of_stored hread⟩)

theorem executionField_cases {field : Setting.Field ExecutionDraft} (h : field ∈ executionFields)
    {key : String} {s : Setting} {d d' : ExecutionDraft} (hread : field.read key s d = .ok d') :
    (field.name = "launcher" ∧
      ∃ text, s.readText key = .ok text ∧ d' = { d with launcher := some text }) ∨
    (field.name = "success-marker" ∧
      ∃ text, s.readText key = .ok text ∧ d' = { d with marker := some text }) := by
  simp only [executionFields, List.mem_cons, List.not_mem_nil, or_false] at h
  rcases h with rfl | rfl
  · exact .inl ⟨rfl, exists_of_stored hread⟩
  · exact .inr ⟨rfl, exists_of_stored hread⟩

section

variable {members : List (String × Setting)} (distinct : (members.map (·.1)).Nodup)

include distinct

theorem only_of_find? {name : String} {value : Setting} (h : Setting.find? members name = some value) :
    name ∈ members.map (·.1) ∧ ∀ other, (name, other) ∈ members → other = value := by
  obtain ⟨before, after, hmembers, -⟩ := List.lookup_eq_some_iff.mp h
  refine ⟨List.mem_map.mpr ⟨(name, value), by simp [hmembers], rfl⟩, fun other hother => ?_⟩
  exact Option.some.inj ((lookup_of_mem distinct hother).symm.trans h)

/-- The section on discovery is read if its fields are texts as they should be. -/
theorem readSection_discovery {entryPoint segment : String} {blacklist : List String}
    {source : Option String} (hentryPoint : Setting.find? members "entry-point" = some (.text entryPoint))
    (hsegment : Setting.find? members "ancestor-segment" = some (.text segment))
    (hblacklist : Setting.find? members "blacklist" = some (.list source (blacklist.map .text)))
    (key wanted : String) (outer : Option String) :
    Setting.readSection key wanted discoveryFields ⟨none, none, none⟩ (.table outer members) =
      .ok ⟨some entryPoint, some segment, some blacklist⟩ := by
  obtain ⟨memEntryPoint, onlyEntryPoint⟩ := only_of_find? distinct hentryPoint
  obtain ⟨memSegment, onlySegment⟩ := only_of_find? distinct hsegment
  obtain ⟨memBlacklist, onlyBlacklist⟩ := only_of_find? distinct hblacklist
  have readable : ∀ field ∈ discoveryFields, ∀ value, (field.name, value) ∈ members →
      ∀ d, ∃ d', field.read (memberKey key field.name) value d = .ok d' := by
    intro field hfield value hmem d
    simp only [discoveryFields, List.mem_cons, List.not_mem_nil, or_false] at hfield
    rcases hfield with rfl | rfl | rfl
    · rw [onlyEntryPoint value hmem]
      exact ⟨_, rfl⟩
    · rw [onlySegment value hmem]
      exact ⟨_, rfl⟩
    · rw [onlyBlacklist value hmem]
      exact ⟨{ d with blacklist := some blacklist }, by simp only [readTexts_of_texts]; rfl⟩
  obtain ⟨d, hread⟩ := exists_readMembers readable ⟨none, none, none⟩
  -- every field is stored in its own place
  have gotEntryPoint : d.entryPoint = some entryPoint := by
    rw [get_of_readMembers DiscoveryDraft.entryPoint ?_ ⟨_, List.mem_cons_self, rfl⟩ onlyEntryPoint hread]
    · exact if_pos memEntryPoint
    intro field hfield key other d d' h
    rcases discoveryField_cases hfield h with
      ⟨hname, text, htext, rfl⟩ | ⟨hname, text, htext, rfl⟩ | ⟨hname, texts, htexts, rfl⟩ <;>
      grind [readText]
  have gotSegment : d.ancestorSegment = some segment := by
    rw [get_of_readMembers DiscoveryDraft.ancestorSegment ?_ ⟨_, .tail _ List.mem_cons_self, rfl⟩
      onlySegment hread]
    · exact if_pos memSegment
    intro field hfield key other d d' h
    rcases discoveryField_cases hfield h with
      ⟨hname, text, htext, rfl⟩ | ⟨hname, text, htext, rfl⟩ | ⟨hname, texts, htexts, rfl⟩ <;>
      grind [readText]
  have gotBlacklist : d.blacklist = some blacklist := by
    rw [get_of_readMembers DiscoveryDraft.blacklist ?_ ⟨_, .tail _ (.tail _ List.mem_cons_self), rfl⟩
      onlyBlacklist hread]
    · exact if_pos memBlacklist
    intro field hfield key other d d' h
    rcases discoveryField_cases hfield h with
      ⟨hname, text, htext, rfl⟩ | ⟨hname, text, htext, rfl⟩ | ⟨hname, texts, htexts, rfl⟩ <;>
      grind [readTexts_of_texts]
  obtain ⟨e, s, b⟩ := d
  obtain rfl : e = some entryPoint := gotEntryPoint
  obtain rfl : s = some segment := gotSegment
  obtain rfl : b = some blacklist := gotBlacklist
  exact readSection_of_table hread (by simp [discoveryFields])

/-- The section on execution is read if its fields are texts. -/
theorem readSection_execution {launcher marker : String}
    (hlauncher : Setting.find? members "launcher" = some (.text launcher))
    (hmarker : Setting.find? members "success-marker" = some (.text marker))
    (key wanted : String) (outer : Option String) :
    Setting.readSection key wanted executionFields ⟨none, none⟩ (.table outer members) =
      .ok ⟨some launcher, some marker⟩ := by
  obtain ⟨memLauncher, onlyLauncher⟩ := only_of_find? distinct hlauncher
  obtain ⟨memMarker, onlyMarker⟩ := only_of_find? distinct hmarker
  have readable : ∀ field ∈ executionFields, ∀ value, (field.name, value) ∈ members →
      ∀ d, ∃ d', field.read (memberKey key field.name) value d = .ok d' := by
    intro field hfield value hmem d
    simp only [executionFields, List.mem_cons, List.not_mem_nil, or_false] at hfield
    rcases hfield with rfl | rfl
    · rw [onlyLauncher value hmem]
      exact ⟨_, rfl⟩
    · rw [onlyMarker value hmem]
      exact ⟨_, rfl⟩
  obtain ⟨d, hread⟩ := exists_readMembers readable ⟨none, none⟩
  have gotLauncher : d.launcher = some launcher := by
    rw [get_of_readMembers ExecutionDraft.launcher ?_ ⟨_, List.mem_cons_self, rfl⟩ onlyLauncher hread]
    · exact if_pos memLauncher
    intro field hfield key other d d' h
    rcases executionField_cases hfield h with ⟨hname, text, htext, rfl⟩ | ⟨hname, text, htext, rfl⟩ <;>
      grind [readText]
  have gotMarker : d.marker = some marker := by
    rw [get_of_readMembers ExecutionDraft.marker ?_ ⟨_, .tail _ List.mem_cons_self, rfl⟩ onlyMarker hread]
    · exact if_pos memMarker
    intro field hfield key other d d' h
    rcases executionField_cases hfield h with ⟨hname, text, htext, rfl⟩ | ⟨hname, text, htext, rfl⟩ <;>
      grind [readText]
  obtain ⟨l, m⟩ := d
  obtain rfl : l = some launcher := gotLauncher
  obtain rfl : m = some marker := gotMarker
  exact readSection_of_table hread (by simp [executionFields])

end

/-- Two sections that can be read are checked. -/
theorem ofSettings_of_sections {source : Option String} {members : List (String × Setting)}
    {discovery execution : Setting} {d : DiscoveryDraft} {e : ExecutionDraft}
    (hdiscovery : Setting.find? members "discovery" = some discovery)
    (hexecution : Setting.find? members "execution" = some execution)
    (readDiscovery : discovery.readSection "discovery" "struct DiscoveryConfig" discoveryFields
      ⟨none, none, none⟩ = .ok d)
    (readExecution : execution.readSection "execution" "struct ExecutionConfigDeserialize"
      executionFields ⟨none, none⟩ = .ok e) :
    ofSettings (.table source members) =
      check ⟨d.blacklist.getD [], d.ancestorSegment.getD "", d.entryPoint.getD ""⟩
        (e.launcher.getD "") (e.marker.getD "") := by
  simp only [ofSettings, asTable, hdiscovery, hexecution, Option.getD_some, readDiscovery,
    readExecution, bind, Except.bind]

/-! ## What a document says -/

/-- What a document says about each of the keys, if anything. -/
structure Overrides where
  entryPoint : Option String
  ancestorSegment : Option String
  blacklist : Option (List String)
  launcher : Option String
  marker : Option String

/-- The texts of a configuration before they are checked. -/
structure Values where
  entryPoint : String
  ancestorSegment : String
  blacklist : List String
  launcher : String
  marker : String

/-- The texts of the default configuration. -/
def defaultValues : Values := ⟨"go.sh", "sim", [".git", ".idea", "template"], "sh", "<<TB_SUCCESS>>"⟩

/-- The default members of a section. -/
def defaultSection (name : String) : List (String × Setting) :=
  ((Setting.find? defaultSettings.asTable.2 name).getD .unset).asTable.2

/-- The default texts with what a document says about them. -/
def Overrides.values (o : Overrides) : Values where
  entryPoint := o.entryPoint.getD defaultValues.entryPoint
  ancestorSegment := o.ancestorSegment.getD defaultValues.ancestorSegment
  blacklist := o.blacklist.getD defaultValues.blacklist
  launcher := o.launcher.getD defaultValues.launcher
  marker := o.marker.getD defaultValues.marker

/-- The configuration of texts, if they pass the check. -/
def Values.checked (v : Values) : Except ConfigProblem Config :=
  check ⟨v.blacklist, v.ancestorSegment, v.entryPoint⟩ v.launcher v.marker

theorem find?_default_entryPoint :
    Setting.find? (defaultSection "discovery") "entry-point" = some (.text defaultValues.entryPoint) :=
  rfl

theorem find?_default_ancestorSegment :
    Setting.find? (defaultSection "discovery") "ancestor-segment" =
      some (.text defaultValues.ancestorSegment) :=
  rfl

theorem find?_default_blacklist :
    Setting.find? (defaultSection "discovery") "blacklist" =
      some (.list none (defaultValues.blacklist.map .text)) :=
  rfl

theorem find?_default_launcher :
    Setting.find? (defaultSection "execution") "launcher" = some (.text defaultValues.launcher) :=
  rfl

theorem find?_default_marker :
    Setting.find? (defaultSection "execution") "success-marker" = some (.text defaultValues.marker) :=
  rfl

/-- The names of the sections are no paths into them. -/
theorem keyPath_discovery : keyPath "discovery" = [.key "discovery"] := by decide

theorem keyPath_execution : keyPath "execution" = [.key "execution"] := by decide

/-- The members of a section of a document; none if it is not there. -/
def sectionOf (members : Toml.Members) (name : String) : Toml.Members :=
  ((members.find? name).bind Toml.Value.members?).getD []

/-- A document that consists of the two sections, with texts for the keys of which it says something, and
with any other keys in the sections. -/
structure Describes (members : Toml.Members) (o : Overrides) : Prop where
  sections : ∀ member ∈ members, (member.1 = "discovery" ∨ member.1 = "execution") ∧
    member.2.members?.isSome
  entryPoint : ((sectionOf members "discovery").find? "entry-point").map Toml.Value.text? =
    o.entryPoint.map some
  ancestorSegment : ((sectionOf members "discovery").find? "ancestor-segment").map Toml.Value.text? =
    o.ancestorSegment.map some
  blacklist : ((sectionOf members "discovery").find? "blacklist").map Toml.Value.texts? =
    o.blacklist.map some
  launcher : ((sectionOf members "execution").find? "launcher").map Toml.Value.text? =
    o.launcher.map some
  marker : ((sectionOf members "execution").find? "success-marker").map Toml.Value.text? =
    o.marker.map some

instance (members : Toml.Members) (o : Overrides) : Decidable (Describes members o) :=
  decidable_of_iff (_ ∧ _ ∧ _ ∧ _ ∧ _ ∧ _)
    ⟨fun ⟨a, b, c, d, e, f⟩ => ⟨a, b, c, d, e, f⟩, fun ⟨a, b, c, d, e, f⟩ => ⟨a, b, c, d, e, f⟩⟩

/-! ## The document over the defaults -/

theorem map_fst_ofMembers (source : Option String) (members : Toml.Members) :
    (ofMembers source members).map (·.1) = members.map (·.1) := by
  rw [ofMembers_eq, List.map_map]
  rfl

section

variable {old : List (String × Setting)} {members : Toml.Members} (distinct : (members.map (·.1)).Nodup)
  (source : Option String)

include distinct

theorem find?_layer (key : String) :
    Setting.find? (overlayMembers old (ofMembers source members)) key =
      match members.find? key with
      | some value => some (overlay ((Setting.find? old key).getD .unset) (ofValue source value))
      | none => Setting.find? old key := by
  have hdistinct : ((ofMembers source members).map (·.1)).Nodup := by rwa [map_fst_ofMembers]
  rw [find?_overlayMembers hdistinct, find?_ofMembers]
  cases members.find? key <;> rfl

/-- A section is laid over the old one. -/
theorem find?_section {name : String} {inner : List (String × Setting)}
    (hold : Setting.find? old name = some (.table none inner))
    (table : ∀ value, members.find? name = some value → value.members?.isSome) :
    Setting.find? (overlayMembers old (ofMembers source members)) name =
      some (.table none (overlayMembers inner (ofMembers source (sectionOf members name)))) := by
  rw [find?_layer distinct, sectionOf, hold]
  cases hvalue : members.find? name with
  | none => rfl
  | some value =>
    obtain ⟨new, hnew⟩ := Option.isSome_iff_exists.mp (table value hvalue)
    obtain ⟨origin, rfl⟩ := Toml.Value.members?_eq_some hnew
    simp only [Option.bind_some, hnew, ofValue, overlay, asTable, Option.getD_some]

/-- A text is the new one if there is one. -/
theorem find?_text {key text : String} {given : Option String}
    (hold : Setting.find? old key = some (.text text))
    (hgiven : (members.find? key).map Toml.Value.text? = given.map some) :
    Setting.find? (overlayMembers old (ofMembers source members)) key =
      some (.text (given.getD text)) := by
  rw [find?_layer distinct, hold]
  cases given with
  | none => rw [Option.map_eq_none_iff.mp hgiven]; rfl
  | some new =>
    obtain ⟨value, hvalue, hnew⟩ := Option.map_eq_some_iff.mp hgiven
    rw [hvalue, Toml.Value.text?_eq_some hnew]
    simp only [ofValue, overlay, Option.getD_some]

/-- A list is the new one if there is one, as a whole. -/
theorem find?_texts {key : String} {texts : List String} {given : Option (List String)}
    (hold : Setting.find? old key = some (.list none (texts.map .text)))
    (hgiven : (members.find? key).map Toml.Value.texts? = given.map some) :
    ∃ origin, Setting.find? (overlayMembers old (ofMembers source members)) key =
      some (.list origin ((given.getD texts).map .text)) := by
  rw [find?_layer distinct, hold]
  cases given with
  | none =>
    rw [Option.map_eq_none_iff.mp hgiven]
    exact ⟨none, rfl⟩
  | some new =>
    obtain ⟨value, hvalue, hnew⟩ := Option.map_eq_some_iff.mp hgiven
    obtain ⟨ofTables, rfl⟩ := Toml.Value.texts?_eq_some hnew
    refine ⟨source, ?_⟩
    rw [hvalue]
    simp only [ofValue, overlay, ofItems_eq, List.map_map, Option.getD_some]
    rfl

end

section

variable {members : Toml.Members} (tidy : members.Tidy) {o : Overrides}
  (describes : Describes members o)

include tidy

theorem tidy_sectionOf (name : String) : (sectionOf members name).Tidy := by
  unfold sectionOf
  cases h : (members.find? name).bind Toml.Value.members? with
  | none => exact .nil
  | some inner =>
    obtain ⟨value, hvalue, hinner⟩ := Option.bind_eq_some_iff.mp h
    obtain ⟨origin, rfl⟩ := Toml.Value.members?_eq_some hinner
    exact (tidy.find? hvalue).members

include describes

theorem find?_sections {name : String}
    (hold : Setting.find? defaultSettings.asTable.2 name = some (.table none (defaultSection name)))
    (source : String) :
    Setting.find? (overlayMembers defaultSettings.asTable.2 (ofMembers (some source) members)) name =
      some (.table none
        (overlayMembers (defaultSection name) (ofMembers (some source) (sectionOf members name)))) := by
  refine find?_section tidy.distinct _ hold fun value hvalue => ?_
  obtain ⟨before, after, hmembers, -⟩ := List.lookup_eq_some_iff.mp hvalue
  exact (describes.sections (name, value) (by simp [hmembers])).2

/-- The configuration of a document laid over the defaults is that of the default texts with what the
document says about them. -/
theorem ofDocument_eq (source : String) : ofDocument source members = o.values.checked := by
  have plain : ∀ member ∈ ofMembers (some source) members, keyPath member.1 = [.key member.1] := by
    intro member hmember
    rw [ofMembers_eq, List.mem_map] at hmember
    obtain ⟨⟨key, value⟩, hmember, rfl⟩ := hmember
    rcases (describes.sections _ hmember).1 with hkey | hkey
    · obtain rfl : key = "discovery" := hkey
      exact keyPath_discovery
    · obtain rfl : key = "execution" := hkey
      exact keyPath_execution
  have merged : defaultSettings.overlaySource (ofMembers (some source) members) =
      .table none (overlayMembers defaultSettings.asTable.2 (ofMembers (some source) members)) :=
    overlaySource_eq plain none _
  -- both sections are there whatever the document has, for the defaults have them
  have hdiscovery := @find?_sections members tidy o describes "discovery" rfl source
  have hexecution := @find?_sections members tidy o describes "execution" rfl source
  have distinct := (tidy_sectionOf tidy "discovery").distinct
  have distinct' := (tidy_sectionOf tidy "execution").distinct
  have distinctOld : ((defaultSection "discovery").map (·.1)).Nodup := by decide
  have distinctOld' : ((defaultSection "execution").map (·.1)).Nodup := by decide
  obtain ⟨origin, hblacklist⟩ :=
    find?_texts distinct (some source) find?_default_blacklist describes.blacklist
  have readDiscovery := readSection_discovery (nodup_overlayMembers distinctOld)
    (find?_text distinct (some source) find?_default_entryPoint describes.entryPoint)
    (find?_text distinct (some source) find?_default_ancestorSegment describes.ancestorSegment)
    hblacklist "discovery" "struct DiscoveryConfig" none
  have readExecution := readSection_execution (nodup_overlayMembers distinctOld')
    (find?_text distinct' (some source) find?_default_launcher describes.launcher)
    (find?_text distinct' (some source) find?_default_marker describes.marker)
    "execution" "struct ExecutionConfigDeserialize" none
  rw [ofDocument, merged, ofSettings_of_sections hdiscovery hexecution readDiscovery readExecution]
  rfl

end

/-! ## Texts and what is wrong with them -/

/-- What comes of texts: their configuration if they pass the check, or else what is wrong with them, the
entry point before the marker and the marker before the launcher. -/
structure Values.Gives (v : Values) (file : String) (result : Except ConfigError Config) : Prop where
  accepted : (∃ c, result = .ok c) ↔
    v.entryPoint ≠ "" ∧ v.marker ≠ "" ∧ ∃ word words, Words.split? v.launcher = some (word :: words)
  values : ∀ c, result = .ok c → c.rule = ⟨v.blacklist, v.ancestorSegment, v.entryPoint⟩ ∧
    c.marker = v.marker ∧ Words.split? v.launcher = some c.launcher.words
  noEntryPoint : v.entryPoint = "" →
    result = .error ⟨file, .emptyValue "discovery.entry-point"⟩
  noMarker : v.entryPoint ≠ "" → v.marker = "" →
    result = .error ⟨file, .emptyValue "execution.success-marker"⟩
  openQuote : v.entryPoint ≠ "" → v.marker ≠ "" → Words.split? v.launcher = none →
    result = .error ⟨file, .badLauncher v.launcher⟩
  noLauncher : v.entryPoint ≠ "" → v.marker ≠ "" → Words.split? v.launcher = some [] →
    result = .error ⟨file, .emptyValue "execution.launcher"⟩

/-- The check of texts, with the launcher's words taken out of it. -/
theorem Values.checked_eq (v : Values) :
    v.checked =
      if v.entryPoint = "" then .error (.emptyValue "discovery.entry-point")
      else if v.marker = "" then .error (.emptyValue "execution.success-marker")
      else match Words.split? v.launcher with
        | none => .error (.badLauncher v.launcher)
        | some [] => .error (.emptyValue "execution.launcher")
        | some (word :: words) =>
          .ok ⟨⟨v.blacklist, v.ancestorSegment, v.entryPoint⟩, ⟨word, words⟩, v.marker⟩ := by
  unfold checked check Launcher.ofLine
  split
  · rfl
  split
  · rfl
  generalize Words.split? v.launcher = words
  match words with
  | none => rfl
  | some [] => rfl
  | some (_ :: _) => rfl

theorem Values.gives_checked (v : Values) (file : String) :
    v.Gives file (v.checked.mapError (⟨file, ·⟩)) := by
  rw [v.checked_eq]
  by_cases hentry : v.entryPoint = ""
  · rw [if_pos hentry]
    constructor <;> simp [Except.mapError, hentry]
  rw [if_neg hentry]
  by_cases hmarker : v.marker = ""
  · rw [if_pos hmarker]
    constructor <;> simp [Except.mapError, hentry, hmarker]
  rw [if_neg hmarker]
  match hwords : Words.split? v.launcher with
  | none => constructor <;> simp [Except.mapError, hentry, hmarker, hwords]
  | some [] => constructor <;> simp [Except.mapError, hentry, hmarker, hwords]
  | some (word :: words) =>
    constructor <;> simp [Except.mapError, hentry, hmarker, hwords, Launcher.words]

/-! ## Files and their configurations -/

/-- A file is there, under its absolute path, and holds a content. -/
def Holds (files : Files) (base : DirId) (file : String) (content : Bytes) : Prop :=
  ∃ path, lookedFor files base file = .ok path ∧ files.isFile base path = true ∧
    files.contentAt base path = .ok content

/-- Two systems cannot be told apart by a file: their working directories have the same path, and what is
at the path of the file and beside it is the same. -/
structure SameFile (files files' : Files) (base base' : DirId) (file : String) : Prop where
  workingDirectory : files.pathOf base = files'.pathOf base'
  isFile : ∀ path, lookedFor files base file = .ok path → ∀ p ∈ [path, withExtension path],
    files.isFile base p = files'.isFile base' p
  content : ∀ path, lookedFor files base file = .ok path → ∀ p ∈ [path, withExtension path],
    files.contentAt base p = files'.contentAt base' p

/-- What the runner relies on: there is a first word to run, and something to search for. -/
structure Usable (c : Config) : Prop where
  launcher : ∃ line word words, Words.split? line = some c.runner.launcher.words ∧
    c.runner.launcher.words = word :: words
  marker : Utf8.encode c.runner.marker ≠ []

variable {files files' : Files} {base base' : DirId} {file : String}

/-- That is what the path leads to as it is spelled, unless the absolute one is too long for the system. -/
theorem holds_iff (regular : files.Regular) {path : Bytes} (h : lookedFor files base file = .ok path)
    {content : Bytes} :
    Holds files base file content ↔ path.length ≤ Route.maxLength ∧
      files.isFile base (Utf8.encode file) = true ∧
      files.contentAt base (Utf8.encode file) = .ok content := by
  have hcontent (short : path.length ≤ Route.maxLength)
      (hfile : files.isFile base (Utf8.encode file) = true) :
      files.contentAt base path = files.contentAt base (Utf8.encode file) := by
    obtain ⟨node, hnode, kind⟩ := Files.isFile_iff.mp hfile
    have noDirectory := Files.noDirectory_of_file kind
    have hpath := (findNode_lookedFor_iff regular h noDirectory).mpr ⟨short, hnode⟩
    rw [Files.contentAt, Files.contentAt, hnode, hpath]
  constructor
  · rintro ⟨path', hpath', hfile, hpathContent⟩
    obtain rfl : path = path' := Except.ok.inj (h.symm.trans hpath')
    obtain ⟨short, hspelled⟩ := (isFile_lookedFor_iff regular h).mp hfile
    exact ⟨short, hspelled, hcontent short hspelled ▸ hpathContent⟩
  · rintro ⟨short, hspelled, hspelledContent⟩
    exact ⟨path, h, (isFile_lookedFor_iff regular h).mpr ⟨short, hspelled⟩,
      (hcontent short hspelled).trans hspelledContent⟩

theorem readSource_of_holds {content : Bytes} (holds : Holds files base file content) :
    ∃ source, readSource files base file = .ok (source, contentText content) := by
  obtain ⟨path, hpath, hfile, hcontent⟩ := holds
  exact readSource_of_findFile (findFile_of_findable hpath hfile) hcontent

theorem lookedFor_congr (same : files.pathOf base = files'.pathOf base') (file : String) :
    lookedFor files base file = lookedFor files' base' file := by
  rw [lookedFor, lookedFor, same]

theorem findFile_congr (same : SameFile files files' base base' file) :
    findFile files base file = findFile files' base' file := by
  rw [findFile_eq, findFile_eq, ← lookedFor_congr same.workingDirectory]
  cases h : lookedFor files base file with
  | error e => rfl
  | ok path =>
    have hpath := same.isFile path h path List.mem_cons_self
    have hbeside := same.isFile path h (withExtension path) (.tail _ List.mem_cons_self)
    simp only [Except.bind, hpath, hbeside]

/-- What is found is under the path of the file or beside it. -/
theorem lookedFor_of_findFile {found : Bytes} (h : findFile files base file = .ok found) :
    ∃ path, lookedFor files base file = .ok path ∧ found ∈ [path, withExtension path] := by
  rw [findFile_eq] at h
  cases hpath : lookedFor files base file with
  | error e =>
    rw [hpath] at h
    cases h
  | ok path =>
    refine ⟨path, rfl, ?_⟩
    simp only [hpath, Except.bind] at h
    split at h
    · simp [Except.ok.inj h]
    split at h
    · simp [Except.ok.inj h]
    · cases h

theorem readSource_congr (same : SameFile files files' base base' file) :
    readSource files base file = readSource files' base' file := by
  unfold readSource
  rw [← findFile_congr same, ← same.workingDirectory]
  cases h : findFile files base file with
  | error e => rfl
  | ok found =>
    obtain ⟨path, hpath, hfound⟩ := lookedFor_of_findFile h
    simp only [bind, Except.bind, same.content path hpath found hfound]

/-- The configuration of a named file depends on that file only. -/
theorem fromSources_congr (same : SameFile files files' base base' file) (root root' : String) :
    fromSources files base root (some file) = fromSources files' base' root' (some file) := by
  unfold fromSources
  simp only [Option.getD_some, readSource_congr same]

theorem usable_of_fromSources {root : String} {named : Option String} {c : Config}
    (accepted : fromSources files base root named = .ok c) : c.Usable := by
  obtain ⟨rule, launcher, marker, hcheck⟩ := exists_check_of_fromSources accepted
  have gives := (⟨rule.entryPoint, rule.ancestorSegment, rule.blacklist, launcher, marker⟩ :
    Values).gives_checked ""
  have hresult : (check rule launcher marker).mapError (ConfigError.mk "") = .ok c := by
    rw [hcheck]
    rfl
  obtain ⟨-, hmarker, word, words, hwords⟩ := gives.accepted.mp ⟨c, hresult⟩
  obtain ⟨-, sameMarker, sameWords⟩ := gives.values c hresult
  constructor
  case launcher => exact ⟨launcher, word, words, sameWords, Option.some.inj (sameWords.symm.trans hwords)⟩
  case marker =>
    rw [ne_eq, Utf8.encode_eq_nil_iff]
    exact fun hempty => hmarker (sameMarker.symm.trans hempty)

theorem fromSources_of_describes {root : String} {named : Option String} {content : Bytes}
    {members : Toml.Members} {o : Overrides} (holds : Holds files base (sourceFile root named) content)
    (parsed : Toml.parse? (contentText content) = some members) (describes : Describes members o) :
    fromSources files base root named = o.values.checked.mapError (⟨sourceFile root named, ·⟩) := by
  obtain ⟨source, hread⟩ := readSource_of_holds holds
  have htext : ofText source (contentText content) = o.values.checked := by
    rw [ofText, parsed]
    exact ofDocument_eq (Toml.tidy_of_parse? parsed) describes source
  rw [fromSources_of_ok hread, htext]

/-- A configuration file that gives texts for some of the keys is laid over the defaults key by key, and the
texts that result are checked. If it is named, its configuration depends on its content only; and what is
wrong with any other named file depends on that file only. Whatever the sources, the runner can rely on a
configuration that is accepted. -/
theorem fromSources_layered {files : Files} {base : DirId} {root : String} {named : Option String}
    {content : Bytes} {members : Toml.Members} {o : Overrides}
    (holds : Holds files base (sourceFile root named) content)
    (parsed : Toml.parse? (contentText content) = some members) (describes : Describes members o) :
    o.values.Gives (sourceFile root named) (fromSources files base root named) ∧
    (∀ file, named = some file → ∀ files' base' root', Holds files' base' file content →
      fromSources files' base' root' (some file) = fromSources files base root (some file)) ∧
    (∀ files files' base base' file, SameFile files files' base base' file → ∀ root root',
      fromSources files base root (some file) = fromSources files' base' root' (some file)) ∧
    ∀ files base root named c, fromSources files base root named = .ok c → c.Usable := by
  refine ⟨?gives, ?alone, fun _ _ _ _ _ same => fromSources_congr same,
    fun _ _ _ _ _ => usable_of_fromSources⟩
  case gives =>
    rw [fromSources_of_describes holds parsed describes]
    exact o.values.gives_checked _
  case alone =>
    rintro file rfl files' base' root' holds'
    rw [fromSources_of_describes holds parsed describes,
      @fromSources_of_describes files' base' root' (some file) _ _ _ holds' parsed describes]
    rfl

/-- A configuration that replaces some of the defaults, and says something else as well. -/
def layeredText : String :=
  "[discovery]\nentry-point = \x22go.ps1\x22\nblacklist = [\x22vendor\x22]\ndepth = 3\n" ++
    "[execution]\nlauncher = \x22bash -c \x27a b\x27\x22\n"

/-- A root `r` that has it. -/
def layeredFiles : Files :=
  let inner : Node := .directory 2 [(Utf8.encode "simtest.toml", .file 0o644 (Utf8.encode layeredText))]
  ⟨.directory 0 [(Utf8.encode "r", .directory 1 [(Utf8.encode ".config", inner)])], [], 3, []⟩

theorem describes_layeredText : ∃ members,
    Toml.parse? (contentText (Utf8.encode layeredText)) = some members ∧
      Describes members ⟨some "go.ps1", none, some ["vendor"], some "bash -c \x27a b\x27", none⟩ := by
  have reads : (Toml.parse? (contentText (Utf8.encode layeredText))).any
      (Describes · ⟨some "go.ps1", none, some ["vendor"], some "bash -c \x27a b\x27", none⟩) = true := by
    decide +kernel
  obtain ⟨members, hmembers, hdescribes⟩ := Option.any_eq_true _ _ |>.mp reads
  exact ⟨members, hmembers, of_decide_eq_true hdescribes⟩

/-- The root has the default ancestor and marker, and what its configuration says in place of the rest. -/
theorem fromSources_layered_of_root :
    ∃ c, fromSources layeredFiles 0 "r" none = .ok c ∧ c.rule = ⟨["vendor"], "sim", "go.ps1"⟩ ∧
      c.marker = "<<TB_SUCCESS>>" ∧ c.launcher.words = ["bash", "-c", "a b"] := by
  have hsource : sourceFile "r" none = "r/.config/simtest.toml" := by decide +kernel
  have holds : Holds layeredFiles 0 (sourceFile "r" none) (Utf8.encode layeredText) := by
    rw [hsource]
    exact ⟨_, rfl, by decide +kernel, by decide +kernel⟩
  obtain ⟨members, parsed, describes⟩ := describes_layeredText
  obtain ⟨gives, -⟩ := fromSources_layered holds parsed describes
  have hwords : Words.split? "bash -c \x27a b\x27" = some ["bash", "-c", "a b"] := by decide +kernel
  obtain ⟨c, hc⟩ := gives.accepted.mpr ⟨by decide, by decide, _, _, hwords⟩
  obtain ⟨hrule, hmarker, hlauncher⟩ := gives.values c hc
  exact ⟨c, hc, hrule, hmarker, Option.some.inj (hlauncher.symm.trans hwords)⟩

end Config

end BenchHarness
