import EnvelopeWire.Description.Toml
import EnvelopeWire.Proofs.Toml.Keys
import EnvelopeWire.Tool.Settings

/-!
# Keys that have a meaning

A key that is misspelled should not pass for one that is left out. In the tables of a description
and of the settings it does not: a document is accepted only if every key in each of them is one
that is read there. There is one exception. A content of a kind without fields takes any keys beside
its kind, and reads as if they were not there.

* `Toml.keysIn_of_fields`: a table that is read as a record has no other keys than its fields.
* `ContentSpec.keysIn_of_ofToml`: so it is for a content, if its kind has fields.
* `ContentSpec.exists_ofToml_eq`: what stands beside a kind without fields is ignored.
* `knownKeys_of_accepted`: all tables of a document.
-/

namespace EnvelopeWire

open Toml

/-- Every key of a table is among `names`. -/
def Toml.KeysIn (names : List String) (entries : Entries) : Prop :=
  ∀ entry ∈ entries, entry.1 ∈ names

/-! ### Records -/

namespace Toml

/-- A table that is read as a record has no other keys than its fields. -/
theorem keysIn_of_fields {α : Type} {names : List String} {entries : Entries}
    {build : Entries → Except Error α} {a : α}
    (h : (Value.table entries).fields names >>= build = .ok a) : KeysIn names entries := by
  obtain ⟨known, hknown, -⟩ := bind_eq_ok_iff.mp h
  exact (knownEntries_eq_ok_iff.mp hknown).1

/-- A required entry is there and is read. -/
private theorem Entries.required_eq_ok_iff {α : Type} {entries : Entries} {name : String}
    {read : Value → Except Error α} {a : α} :
    entries.required name read = .ok a ↔ ∃ v, entries.lookup name = some v ∧ read v = .ok a := by
  rw [required]
  cases entries.lookup name <;> simp

private theorem Value.text_eq_ok_iff {v : Value} {s : String} : v.text = .ok s ↔ v = .string s := by
  cases v <;> simp [text]

/-- An optional field that is there is read. -/
private theorem Entries.optional_eq_ok {α : Type} {entries : Entries} {name : String} {v : Value}
    {read : Value → Except Error α} {found : Option α} (hv : entries.lookup name = some v)
    (h : entries.optional name read = .ok found) : ∃ a, read v = .ok a := by
  rw [optional, hv] at h
  cases hread : read v with
  | ok a => exact ⟨a, rfl⟩
  | error e =>
    have herror : (Except.error e : Except Error α) >>= (fun a => pure (some a)) = .ok found := by
      rw [← hread]
      exact h
    cases herror

/-- An entry with a default is read where it is there. -/
private theorem Entries.withDefault_eq_ok {α : Type} {entries : Entries} {name : String} {v : Value}
    {default : α} {read : Value → Except Error α} {a : α} (hv : entries.lookup name = some v)
    (h : entries.withDefault name default read = .ok a) : ∃ a, read v = .ok a := by
  obtain ⟨found, hfound, -⟩ := bind_eq_ok_iff.mp h
  exact optional_eq_ok hv hfound

end Toml

/-! ### Contents -/

namespace ContentSpec

/-- The fields of a content of the kind `kind`, if that is a kind. -/
def fieldsOf : (kind : String) → Option (List String)
  | "no_message" | "success" => some []
  | "error" => some ["code", "category", "reason"]
  | "raw" => some ["tag"]
  | _ => none

/-- What stands beside the kind of a content is a field of the kind, if that has fields. -/
private theorem keysIn_of_ofEntries {entries : Entries} {kind : String} {spec : ContentSpec}
    (h : ofEntries entries kind = .ok spec) :
    ∃ names, fieldsOf kind = some names ∧ (names ≠ [] → KeysIn names entries) := by
  unfold ofEntries at h
  split at h
  · exact ⟨[], rfl, fun hne => absurd rfl hne⟩
  · exact ⟨[], rfl, fun hne => absurd rfl hne⟩
  · obtain ⟨known, hknown, -⟩ := bind_eq_ok_iff.mp h
    exact ⟨_, rfl, fun _ => (knownEntries_eq_ok_iff.mp hknown).1⟩
  · obtain ⟨known, hknown, -⟩ := bind_eq_ok_iff.mp h
    exact ⟨_, rfl, fun _ => (knownEntries_eq_ok_iff.mp hknown).1⟩
  · cases h

/-- A kind without fields takes anything beside it. -/
private theorem exists_ofEntries_eq {kind : String} (hkind : fieldsOf kind = some []) :
    ∃ spec, ∀ entries, ofEntries entries kind = .ok spec := by
  unfold fieldsOf at hkind
  split at hkind
  · exact ⟨.noMessage, fun _ => rfl⟩
  · exact ⟨.success, fun _ => rfl⟩
  all_goals cases hkind

variable {Kept : Value → Prop} {entries : Entries}

/-- **Each key of a content is its kind or a field of it**, if the kind has fields. -/
theorem keysIn_of_ofToml {spec : ContentSpec} (honce : Once Kept entries)
    (h : ofToml (.table entries) = .ok spec) :
    ∃ kind names, ("kind", .string kind) ∈ entries ∧ fieldsOf kind = some names ∧
      (names ≠ [] → KeysIn ("kind" :: names) entries) := by
  obtain ⟨kind, hkind, hspec⟩ := bind_eq_ok_iff.mp h
  obtain ⟨v, hv, hread⟩ := Entries.required_eq_ok_iff.mp hkind
  obtain ⟨names, hnames, hkeys⟩ := keysIn_of_ofEntries hspec
  refine ⟨kind, names, ?_, hnames, fun hne entry hentry => ?_⟩
  · rw [← Value.text_eq_ok_iff.mp hread]
    exact honce.lookup_eq_some_iff.mp hv
  · by_cases hname : entry.1 = "kind"
    · exact List.mem_cons.mpr (.inl hname)
    · exact List.mem_cons_of_mem _
        (hkeys hne entry (List.mem_filter.mpr ⟨hentry, bne_iff_ne.mpr hname⟩))

/-- **What stands beside a kind without fields is ignored.** -/
theorem exists_ofToml_eq (honce : Once Kept entries) {kind : String}
    (hmem : ("kind", .string kind) ∈ entries) (hkind : fieldsOf kind = some []) :
    ∃ spec, ofToml (.table entries) = .ok spec ∧
      ofToml (.table [("kind", .string kind)]) = .ok spec := by
  obtain ⟨spec, hspec⟩ := exists_ofEntries_eq hkind
  have hread : Entries.required entries "kind" Value.text = .ok kind :=
    Entries.required_eq_ok_iff.mpr ⟨_, honce.lookup_eq_some_iff.mpr hmem, rfl⟩
  refine ⟨spec, ?_, hspec _⟩
  rw [ofToml, hread]
  exact hspec _

end ContentSpec

/-! ### Documents -/

/-- Every key in the tables of a description has a meaning there, if those beside a kind of contents
without fields are not counted. -/
structure Description.KnownKeys (entries : Entries) : Prop where
  top : KeysIn ["id", "destination", "content"] entries
  destination : ∀ inner, ("destination", .table inner) ∈ entries → KeysIn ["kind", "target"] inner
  content : ∀ inner, ("content", .table inner) ∈ entries →
    ∃ kind names, ("kind", .string kind) ∈ inner ∧ ContentSpec.fieldsOf kind = some names ∧
      (names ≠ [] → KeysIn ("kind" :: names) inner)

/-- Every key in the tables of the settings has a meaning there. -/
structure Settings.KnownKeys (entries : Entries) : Prop where
  top : KeysIn ["builder", "output"] entries
  builder : ∀ inner, ("builder", .table inner) ∈ entries →
    KeysIn ["initial_capacity", "force_defaults"] inner
  output : ∀ inner, ("output", .table inner) ∈ entries → KeysIn ["format"] inner

section Accepted

variable {entries : Entries} (honce : Once Value.KeysOnce entries)

include honce

/-- The keys of a description that is read are known ones. -/
private theorem Description.knownKeys_of_ofEntries {d : Description}
    (h : ofEntries entries = .ok d) :
    KnownKeys entries := by
  obtain ⟨known, hknown, hrest⟩ := bind_eq_ok_iff.mp h
  obtain ⟨htop, rfl⟩ := knownEntries_eq_ok_iff.mp hknown
  obtain ⟨id, -, hrest⟩ := bind_eq_ok_iff.mp hrest
  obtain ⟨destination, hdestination, hrest⟩ := bind_eq_ok_iff.mp hrest
  obtain ⟨content, hcontent, -⟩ := bind_eq_ok_iff.mp hrest
  refine ⟨htop, fun inner hinner => ?_, fun inner hinner => ?_⟩
  · have hlookup := honce.lookup_eq_some_iff.mpr hinner
    obtain ⟨spec, hspec⟩ := Entries.optional_eq_ok hlookup hdestination
    exact keysIn_of_fields hspec
  · have hlookup := honce.lookup_eq_some_iff.mpr hinner
    obtain ⟨spec, hspec⟩ := Entries.optional_eq_ok hlookup hcontent
    exact ContentSpec.keysIn_of_ofToml (honce.of_mem_table hinner) hspec

/-- The keys of settings that are read are known ones. -/
private theorem Settings.knownKeys_of_ofEntries {s : Settings} (h : ofEntries entries = .ok s) :
    KnownKeys entries := by
  obtain ⟨known, hknown, hrest⟩ := bind_eq_ok_iff.mp h
  obtain ⟨htop, rfl⟩ := knownEntries_eq_ok_iff.mp hknown
  obtain ⟨builder, hbuilder, hrest⟩ := bind_eq_ok_iff.mp hrest
  obtain ⟨format, hformat, -⟩ := bind_eq_ok_iff.mp hrest
  refine ⟨htop, fun inner hinner => ?_, fun inner hinner => ?_⟩
  · have hlookup := honce.lookup_eq_some_iff.mpr hinner
    obtain ⟨options, hoptions⟩ := Entries.withDefault_eq_ok hlookup hbuilder
    exact keysIn_of_fields hoptions
  · have hlookup := honce.lookup_eq_some_iff.mpr hinner
    obtain ⟨shown, hshown⟩ := Entries.withDefault_eq_ok hlookup hformat
    exact keysIn_of_fields hshown

end Accepted

/-- **A key without a meaning is refused**, with one exception. Where a document is accepted as a
description or as settings, every key in its tables is one that is read there, and a document with
another key in one of them is refused. Only beside a kind of contents that has no fields other keys
may stand, and the content reads as if they did not. -/
theorem knownKeys_of_accepted {text : String} {entries : Entries}
    (hparse : Toml.parse text = .ok entries) :
    (∀ d, Description.ofToml text = .ok d → Description.KnownKeys entries) ∧
      (¬ Description.KnownKeys entries → ∃ e, Description.ofToml text = .error e) ∧
      (∀ s, Settings.ofToml text = .ok s → Settings.KnownKeys entries) ∧
      (¬ Settings.KnownKeys entries → ∃ e, Settings.ofToml text = .error e) ∧
      ∀ inner kind, ("content", .table inner) ∈ entries → ("kind", .string kind) ∈ inner →
        ContentSpec.fieldsOf kind = some [] → ∃ spec,
          ContentSpec.ofToml (.table inner) = .ok spec ∧
            ContentSpec.ofToml (.table [("kind", .string kind)]) = .ok spec := by
  have honce := once_of_parse hparse
  have hdescription (d : Description) (h : Description.ofToml text = .ok d) :
      Description.KnownKeys entries := by
    rw [Description.ofToml, hparse] at h
    exact Description.knownKeys_of_ofEntries honce h
  have hsettings (s : Settings) (h : Settings.ofToml text = .ok s) :
      Settings.KnownKeys entries := by
    rw [Settings.ofToml, hparse] at h
    exact Settings.knownKeys_of_ofEntries honce h
  exact ⟨hdescription, exists_error_of_not hdescription, hsettings, exists_error_of_not hsettings,
    fun inner kind hinner => ContentSpec.exists_ofToml_eq (honce.of_mem_table hinner)⟩

/-- A key that is misspelled beside a kind of contents without fields. -/
def Description.misspelled : String := "[content]\nkind = \"success\"\nresaon = \"typo\"\n"

/-- A key without meaning beside a kind without fields is accepted in a description, while a table
that the settings do not know is refused. -/
theorem knownKeys_of_accepted_misspelled :
    ∃ entries inner, Toml.parse Description.misspelled = .ok entries ∧
      Description.KnownKeys entries ∧ ("content", .table inner) ∈ entries ∧
      ¬ KeysIn ["kind"] inner ∧ ContentSpec.ofToml (.table inner) = .ok .success ∧
      ∃ e, Settings.ofToml Description.misspelled = .error e := by
  obtain ⟨d, hd, -⟩ := exists_ok_of_any (x := Description.ofToml Description.misspelled)
    (p := fun _ => true) (by decide +kernel)
  obtain ⟨entries, hparse, hshown⟩ := exists_ok_of_any (x := Toml.parse Description.misspelled)
    (p := fun entries =>
      (Entries.required entries "content" ContentSpec.ofToml).toOption == some .success &&
        (Entries.required entries "content" (Value.fields ["kind"])).toOption.isNone)
    (by decide +kernel)
  obtain ⟨hspec, hunknown⟩ := (Bool.and_eq_true _ _).mp hshown
  obtain ⟨v, hlookup, hv⟩ :=
    Entries.required_eq_ok_iff.mp (toOption_eq_some_iff.mp (eq_of_beq hspec))
  rw [Entries.required, hlookup] at hunknown
  have hcontent := (once_of_parse hparse).lookup_eq_some_iff.mp hlookup
  obtain ⟨hdescription, -, -, hsettings, -⟩ := knownKeys_of_accepted hparse
  cases v with
  | table inner =>
    refine ⟨entries, inner, hparse, hdescription d hd, hcontent, fun hkeys => ?_, hv,
      hsettings fun hknown => ?_⟩
    · change (knownEntries ["kind"] inner).toOption.isNone = true at hunknown
      rw [knownEntries_eq_ok_iff.mpr ⟨hkeys, rfl⟩] at hunknown
      cases hunknown
    · have htop : "content" ∈ ["builder", "output"] := hknown.top _ hcontent
      exact absurd htop (by decide)
  | array items => cases hunknown
  | string | integer | float | boolean | datetime => cases hv

end EnvelopeWire
