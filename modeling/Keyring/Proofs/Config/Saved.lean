import Keyring.Proofs.Config.Layers
import Keyring.Proofs.Config.Written

/-! # Saved settings

Settings are written as a document of their sections, and absent fields are left out. What was
written is read back as it was, whatever stands in its texts, unless a number does not fit 64 bits
with a sign: then the file can be written but not read.
-/

namespace Keyring

/-- A file that was written can be read, and the variables are what they were. -/
theorem Host.of_write_eq_ok {h h' : Host} {path text : String}
    (hwrite : h.write path text = .ok h') :
    h'.read? path = some text ∧ h'.environment = h.environment := by
  rw [Host.write] at hwrite
  split at hwrite
  · contradiction
  split at hwrite
  · obtain rfl := Except.ok.inj hwrite
    exact ⟨by simp [Host.read?], rfl⟩
  split at hwrite
  · contradiction
  · contradiction

namespace Config

open Reading
open Toml (Written Fields isBareName WellNamed)

/-! ## How settings are written -/

/-- The items of a record that are given, under their names and in their order. -/
def Layout.items {α β : Type} (L : Layout α) (given : L.Index → Option β) : List (String × β) :=
  L.order.filterMap fun i => (given i).map (L.name i, ·)

namespace Layout

variable {α β : Type} {L : Layout α} {given : L.Index → Option β} {i : L.Index}

/-- An item is a field that is given, under its name. -/
theorem mem_items_iff {p : String × β} :
    p ∈ L.items given ↔ ∃ i, given i = some p.2 ∧ L.name i = p.1 := by
  rw [items, List.mem_filterMap]
  constructor
  · rintro ⟨i, -, hi⟩
    obtain ⟨b, hb, rfl⟩ := Option.map_eq_some_iff.mp hi
    exact ⟨i, hb, rfl⟩
  · rintro ⟨i, hi, hname⟩
    exact ⟨i, L.mem_order i, by rw [hi, hname]; rfl⟩

/-- The item under the name of a field is that field, if it is given. -/
theorem find?_items : (L.items given).find? (·.1 = L.name i) = (given i).map (L.name i, ·) := by
  cases hfound : (L.items given).find? (·.1 = L.name i) with
  | some p =>
      obtain ⟨j, hj, hname⟩ := mem_items_iff.mp (List.mem_of_find?_eq_some hfound)
      have hp : p.1 = L.name i := by simpa using List.find?_some hfound
      obtain rfl := L.name_injective (hname.trans hp)
      rw [hj, ← hp]
      rfl
  | none =>
      cases hi : given i with
      | none => rfl
      | some b =>
          have hmem : (L.name i, b) ∈ L.items given := mem_items_iff.mpr ⟨i, hi, rfl⟩
          exact absurd (decide_eq_true rfl) (List.find?_eq_none.mp hfound _ hmem)

/-- The names of the items are some of the names of the record, in its order. -/
theorem map_fst_items_sublist : ((L.items given).map (·.1)).Sublist (L.order.map L.name) := by
  rw [items, List.map_filterMap]
  generalize L.order = order
  induction order with
  | nil => exact .slnil
  | cons i order ih =>
      rw [List.filterMap_cons, List.map_cons]
      cases given i with
      | none => exact ih.cons _
      | some b => exact ih.cons_cons _

/-- The items of a record with bare names are well named. -/
theorem wellNamed_items (h : ∀ i, isBareName (L.name i)) : WellNamed (L.items given) := by
  refine ⟨L.nodup.sublist map_fst_items_sublist, fun p hp => ?_⟩
  obtain ⟨i, -, hname⟩ := mem_items_iff.mp hp
  exact hname ▸ h i

end Layout

/-- How the fields of the rotation are written. -/
def rotationWritten (s : RotationSettings) : RotationField → Option Written
  | .intervalSecs => some (.nat s.intervalSecs)
  | .keyStrength => some (.nat s.keyStrength)

/-- How the fields of the store are written. -/
def storeWritten (s : StoreSettings) : StoreField → Option Written
  | .provider => some (.text s.provider)
  | .uri => s.uri.map .text
  | .spaceName => s.spaceName.map .text
  | .maxSize => s.maxSize.map .nat
  | .poolSize => s.poolSize.map .nat

/-- How the fields of the secrets are written. -/
def secretWritten (s : SecretSettings) : SecretField → Option Written
  | .secretKeyBase => s.secretKeyBase.map .text
  | .encryptionKey => s.encryptionKey.map .text

/-- How the fields of the log are written. -/
def logWritten (s : LogSettings) : LogField → Option Written
  | .level => some (.text s.level)
  | .jsonFormat => some (.bool s.jsonFormat)
  | .fileOutput => s.fileOutput.map .text

namespace Section

/-- How the fields of a section are written. -/
def written : (sec : Section) → Settings → sec.layout.Index → Option Written
  | .rotation, s => rotationWritten s.rotation
  | .blobStore, s => storeWritten s.blobStore
  | .secrets, s => secretWritten s.secrets
  | .logging, s => logWritten s.logging

/-- The fields of a section that are written. -/
def fields (s : Settings) (sec : Section) : Fields := sec.layout.items (sec.written s)

end Section

/-- The sections of the settings with their fields. -/
def sections (s : Settings) : List (String × Fields) :=
  settingsLayout.items fun sec => some (sec.fields s)

/-- The fields of a section are written in order, and those that are absent leave no line. -/
theorem fieldsText_items {α : Type} (L : Layout α) (given : L.Index → Option Written) :
    Toml.fieldsText (L.items given) =
      String.join (L.order.map fun i => Toml.optionalLine (L.name i) Written.shown (given i)) := by
  rw [Layout.items]
  generalize L.order = order
  induction order with
  | nil => rfl
  | cons i order ih =>
      rw [List.filterMap_cons, List.map_cons, String.join_cons, ← ih]
      cases given i with
      | none => exact String.empty_append.symm
      | some w => rfl

theorem optionalLine_map {α β : Type} (name : String) (shown : β → String) (f : α → β)
    (o : Option α) :
    Toml.optionalLine name shown (o.map f) = Toml.optionalLine name (fun a => shown (f a)) o := by
  cases o <;> rfl

/-- The text of the settings is the document of their sections. -/
theorem ofSettings_eq (s : Settings) : Toml.ofSettings s = Toml.documentText (sections s) := by
  have hsections :
      sections s = [("rotation", Section.rotation.fields s),
      ("blob_store", Section.blobStore.fields s), ("secrets", Section.secrets.fields s),
      ("logging", Section.logging.fields s)] := rfl
  have hrotation : Toml.fieldsText (Section.rotation.fields s) = String.join
      [Toml.fieldLine "interval_secs" (toString s.rotation.intervalSecs),
       Toml.fieldLine "key_strength" (toString s.rotation.keyStrength)] :=
    fieldsText_items rotationLayout _
  have hstore : Toml.fieldsText (Section.blobStore.fields s) = String.join
      [Toml.fieldLine "provider" (Toml.showText s.blobStore.provider),
       Toml.optionalLine "uri" Written.shown (s.blobStore.uri.map .text),
       Toml.optionalLine "namespace" Written.shown (s.blobStore.spaceName.map .text),
       Toml.optionalLine "max_size" Written.shown (s.blobStore.maxSize.map .nat),
       Toml.optionalLine "pool_size" Written.shown (s.blobStore.poolSize.map .nat)] :=
    fieldsText_items storeLayout _
  have hsecrets : Toml.fieldsText (Section.secrets.fields s) = String.join
      [Toml.optionalLine "secret_key_base" Written.shown (s.secrets.secretKeyBase.map .text),
       Toml.optionalLine "encryption_key" Written.shown (s.secrets.encryptionKey.map .text)] :=
    fieldsText_items secretLayout _
  have hlogging : Toml.fieldsText (Section.logging.fields s) = String.join
      [Toml.fieldLine "level" (Toml.showText s.logging.level),
       Toml.boolLine "json_format" s.logging.jsonFormat,
       Toml.optionalLine "file_output" Written.shown (s.logging.fileOutput.map .text)] :=
    fieldsText_items logLayout _
  rw [hsections]
  simp only [Toml.documentText, List.isEmpty_cons, List.isEmpty_nil, if_true, Bool.false_eq_true,
    if_false]
  rw [hrotation, hstore, hsecrets, hlogging]
  simp only [optionalLine_map, String.join_cons, String.join_nil]
  delta Toml.ofSettings
  simp only [Written.shown_text, Written.shown_nat, String.append_empty, String.append_assoc]

/-! ## Reading what was written -/

variable {s : Settings} {file : Tree} {sec : Section} {i : sec.layout.Index}

/-- The sections have bare names that differ. -/
theorem wellNamed_sections (s : Settings) : WellNamed (sections s) := by
  apply Layout.wellNamed_items
  rintro ⟨⟩ <;> decide

/-- The fields of a section have bare names that differ. -/
theorem wellNamed_fields (s : Settings) (sec : Section) : WellNamed (sec.fields s) := by
  apply Layout.wellNamed_items
  cases sec <;> rintro ⟨⟩ <;> decide

/-- Every section is written, with its fields. -/
theorem mem_sections_iff {p : String × Fields} :
    p ∈ sections s ↔ ∃ sec : Section, p = (sec.name, sec.fields s) := by
  rw [sections, Layout.mem_items_iff]
  constructor
  · rintro ⟨sec, hfields, hname⟩
    exact ⟨sec, Prod.ext hname.symm (Option.some.inj hfields).symm⟩
  · rintro ⟨sec, rfl⟩
    exact ⟨sec, rfl, rfl⟩

/-- The text of the settings is parsed as the tree of their sections. -/
theorem parse?_ofSettings (s : Settings) : Toml.parse? (Toml.ofSettings s) =
    (Toml.entries? Toml.sectionNode? (sections s)).map fun es => .table
      (Toml.entriesTree [] es) := by
  have hfields : ∀ p ∈ sections s, WellNamed p.2 := by
    intro p hp
    obtain ⟨sec, rfl⟩ := mem_sections_iff.mp hp
    exact wellNamed_fields s sec
  rw [ofSettings_eq, Toml.parse?_documentText (wellNamed_sections s) hfields]

/-- A saved file is parsed exactly if each value that is written can be read. -/
theorem isSome_parse?_iff :
    (Toml.parse? (Toml.ofSettings s)).isSome ↔
      ∀ (sec : Section) i, ∀ w ∈ sec.written s i, w.tree?.isSome := by
  rw [parse?_ofSettings, Option.isSome_map, Toml.isSome_entries?]
  constructor
  · intro h sec i w hw
    have hsection := h _ (mem_sections_iff.mpr ⟨sec, rfl⟩)
    rw [Toml.sectionNode?, Option.isSome_map, Toml.isSome_entries?] at hsection
    simpa [Toml.fieldNode?] using hsection (sec.layout.name i, w)
      (Layout.mem_items_iff.mpr ⟨i, hw, rfl⟩)
  · intro h p hp
    obtain ⟨sec, rfl⟩ := mem_sections_iff.mp hp
    rw [Toml.sectionNode?, Option.isSome_map, Toml.isSome_entries?]
    intro p hp
    obtain ⟨i, hi, -⟩ := Layout.mem_items_iff.mp hp
    simpa [Toml.fieldNode?] using h sec i _ hi

/-- A saved section holds under the name of a field what its written form is read as. -/
theorem find?_of_parse? (hfile : Toml.parse? (Toml.ofSettings s) = some file) (sec : Section) :
    ∃ es, file.find? sec.name = some (.table es) ∧
      ∀ i, Tree.lookup (sec.layout.name i) es = (sec.written s i).bind (·.tree?) := by
  rw [parse?_ofSettings] at hfile
  obtain ⟨es, hes, rfl⟩ := Option.map_eq_some_iff.mp hfile
  have hsection := Toml.lookup_entries? (wellNamed_sections s) hes sec.name
  have hfound : (sections s).find? (·.1 = sec.name) = some (sec.name, sec.fields s) :=
    Layout.find?_items (L := settingsLayout)
  have hread : (Toml.sectionNode? (sec.fields s)).isSome :=
    Toml.isSome_entries?.mp (hes ▸ rfl) _ (mem_sections_iff.mpr ⟨sec, rfl⟩)
  obtain ⟨node, hnode⟩ := Option.isSome_iff_exists.mp hread
  obtain ⟨fs, hfs, rfl⟩ := Option.map_eq_some_iff.mp hnode
  rw [hfound, Option.bind_some, hnode] at hsection
  refine ⟨_, hsection, fun i => ?_⟩
  rw [Toml.lookup_entries? (wellNamed_fields s sec) hfs, Section.fields, Layout.find?_items]
  cases sec.written s i with
  | none => rfl
  | some w => cases hw : w.tree? <;> simp [Toml.fieldNode?, hw, Toml.Node.tree]

/-! ## Saving and loading -/

/-- The numbers of the settings. -/
def numbers (s : Settings) : List Nat :=
  [s.rotation.intervalSecs, s.rotation.keyStrength] ++ s.blobStore.maxSize.toList ++
    s.blobStore.poolSize.toList

/-- Whether a number fits 64 bits with a sign. -/
def isSigned64 (n : Nat) : Bool := n < 0x8000_0000_0000_0000

/-- A number that fits is read back as it was. -/
theorem tree?_nat {n : Nat} (h : isSigned64 n) : (Written.nat n).tree? = some (.int n) := by
  rw [isSigned64, decide_eq_true_iff] at h
  show (Toml.int64? false n).map Tree.int = _
  rw [Toml.int64?, if_neg (by decide), if_pos h]
  rfl

/-- A number can be read exactly if it fits. -/
theorem isSome_tree?_nat {n : Nat} : (Written.nat n).tree?.isSome ↔ isSigned64 n := by
  constructor
  · show ((Toml.int64? false n).map Tree.int).isSome → _
    rw [Option.isSome_map, Toml.int64?, if_neg (by decide), isSigned64, decide_eq_true_iff]
    split
    · exact fun _ => ‹_›
    · intro h
      contradiction
  · intro h
    rw [tree?_nat h]
    rfl

/-- Every value that is written can be read, but for the greatest numbers. -/
theorem isSome_tree?_written_iff :
    (∀ (sec : Section) i, ∀ w ∈ sec.written s i, w.tree?.isSome) ↔
      ∀ n ∈ numbers s, isSigned64 n := by
  constructor
  · intro h n hn
    simp only [numbers, List.mem_append, List.mem_cons, List.not_mem_nil, or_false,
      Option.mem_toList] at hn
    obtain ((rfl | rfl) | hmax) | hpool := hn
    · exact isSome_tree?_nat.mp (h .rotation .intervalSecs _ rfl)
    · exact isSome_tree?_nat.mp (h .rotation .keyStrength _ rfl)
    · exact isSome_tree?_nat.mp (h .blobStore .maxSize _ (congrArg (Option.map _) hmax))
    · exact isSome_tree?_nat.mp (h .blobStore .poolSize _ (congrArg (Option.map _) hpool))
  · intro h sec i w hw
    have htext (o : Option String) (hw : o.map Written.text = some w) : w.tree?.isSome := by
      obtain ⟨u, -, rfl⟩ := Option.map_eq_some_iff.mp hw
      rfl
    have hnat (o : Option Nat) (ho : ∀ n ∈ o, n ∈ numbers s) (hw : o.map Written.nat = some w) :
        w.tree?.isSome := by
      obtain ⟨n, hn, rfl⟩ := Option.map_eq_some_iff.mp hw
      exact isSome_tree?_nat.mpr (h n (ho n hn))
    cases sec with
    | rotation =>
        cases i with
        | intervalSecs => exact hnat (some s.rotation.intervalSecs) (by simp [numbers]) hw
        | keyStrength => exact hnat (some s.rotation.keyStrength) (by simp [numbers]) hw
    | blobStore =>
        cases i with
        | provider => exact htext (some _) hw
        | uri => exact htext _ hw
        | spaceName => exact htext _ hw
        | maxSize => exact hnat s.blobStore.maxSize (by simp +contextual [numbers]) hw
        | poolSize => exact hnat s.blobStore.poolSize (by simp +contextual [numbers]) hw
    | secrets =>
        cases i with
        | secretKeyBase => exact htext _ hw
        | encryptionKey => exact htext _ hw
    | logging =>
        cases i with
        | level => exact htext (some _) hw
        | jsonFormat =>
            obtain rfl := Option.some.inj hw
            rfl
        | fileOutput => exact htext _ hw

/-- A number within its bound is taken as it is. -/
theorem nat_int {n bound : Nat} (h : n ≤ bound) : nat bound (.int n) = .ok n := by
  rw [nat, if_pos ⟨Int.natCast_nonneg n, Int.ofNat_le.mpr h⟩]
  rfl

/-- A number that fits with a sign fits without one. -/
theorem le_maxWord64_of_isSigned64 {n : Nat} (h : isSigned64 n) : n ≤ maxWord64 := by
  rw [isSigned64, decide_eq_true_iff] at h
  exact Nat.le_of_lt (Nat.lt_trans h (by decide))

/-- A field is read back from its written form. -/
theorem sets_written (hpool : ∀ n ∈ s.blobStore.poolSize, n ≤ maxWord32)
    (hnumbers : ∀ n ∈ numbers s, isSigned64 n) :
    sec.Sets i ((sec.written s i).bind (·.tree?)) s := by
  obtain ⟨⟨intervalSecs, keyStrength⟩, ⟨provider, uri, spaceName, maxSize, poolSize⟩,
    ⟨secretKeyBase, encryptionKey⟩, ⟨level, jsonFormat, fileOutput⟩⟩ := s
  have hnat (n : Nat) (hn : n ∈ numbers _) :
      (Written.nat n).tree? = some (.int n) ∧ nat maxWord64 (.int n) = .ok n :=
    ⟨tree?_nat (hnumbers n hn), nat_int (le_maxWord64_of_isSigned64 (hnumbers n hn))⟩
  cases sec with
  | rotation =>
      cases i with
      | intervalSecs =>
          obtain ⟨htree, hread⟩ := hnat intervalSecs (by simp [numbers])
          show rotationLayout.Sets .intervalSecs (Written.nat intervalSecs).tree? _ _
          rw [htree]
          exact hread
      | keyStrength =>
          obtain ⟨htree, hread⟩ := hnat keyStrength (by simp [numbers])
          show rotationLayout.Sets .keyStrength (Written.nat keyStrength).tree? _ _
          rw [htree]
          exact hread
  | blobStore =>
      cases i with
      | provider => rfl
      | uri => cases uri <;> rfl
      | spaceName => cases spaceName <;> rfl
      | maxSize =>
          cases maxSize with
          | none => rfl
          | some n =>
              obtain ⟨htree, hread⟩ := hnat n (by simp [numbers])
              show storeLayout.Sets .maxSize (Written.nat n).tree? _ _
              rw [htree]
              exact congrArg (Except.map some) hread
      | poolSize =>
          cases poolSize with
          | none => rfl
          | some n =>
              obtain ⟨htree, -⟩ := hnat n (by simp [numbers])
              show storeLayout.Sets .poolSize (Written.nat n).tree? _ _
              rw [htree]
              exact congrArg (Except.map some) (nat_int (hpool n rfl))
  | secrets =>
      cases i with
      | secretKeyBase => cases secretKeyBase <;> rfl
      | encryptionKey => cases encryptionKey <;> rfl
  | logging =>
      cases i with
      | level => rfl
      | jsonFormat => rfl
      | fileOutput => cases fileOutput <;> rfl

namespace Loader

variable {l : Loader} {h h' : Host} {path text : String}

/-- What was written is the layer of the file, and the variables are what they were. -/
theorem fileLayer_of_write (hwrite : h.write path text = .ok h') (hpath : l.path = some path) :
    h'.environment = h.environment ∧
      l.fileLayer h' = match Toml.parse? text with
        | some t => .ok t
        | none => .error ⟨.message, []⟩ := by
  obtain ⟨hread, henvironment⟩ := Host.of_write_eq_ok hwrite
  have hsource : l.source h' = some path := by
    rw [source, hpath]
    exact if_pos (by rw [Host.exists?, hread]; rfl)
  rw [fileLayer, hsource, Option.bind_some, hread]
  exact ⟨henvironment, rfl⟩

/-- Saving writes the text of the settings to the path. -/
theorem write_of_save (hsave : save s path h = .ok h') :
    h.write path (Toml.ofSettings s) = .ok h' := by
  rw [save] at hsave
  cases hwrite : h.write path (Toml.ofSettings s) with
  | error fault =>
      rw [hwrite] at hsave
      cases hsave
  | ok written =>
      rw [hwrite] at hsave
      exact congrArg Except.ok (Except.ok.inj hsave)

/-- No variable names a path that starts as the loader's variables do. -/
def Quiet (l : Loader) (h : Host) : Prop :=
  ∀ v ∈ h.environment, Environment.path? l.environmentPrefix v.1 = none

instance : Decidable (l.Quiet h) := inferInstanceAs (Decidable (∀ v ∈ h.environment, _))

/-- Without variables there are none to name anything but a field. -/
theorem Quiet.namesFields (hquiet : l.Quiet h) : l.NamesFields h := by
  intro v hv path hpath
  rw [hquiet v hv] at hpath
  contradiction

/-- Without variables none enters a section. -/
theorem Quiet.not_enters (hquiet : l.Quiet h) (n : String) :
    ¬ Environment.Enters l.environmentPrefix n h.environment := by
  rintro ⟨v, hv, henters⟩
  rw [hquiet v hv] at henters
  contradiction

/-- What was saved can be read if each field can be read back. -/
theorem load_of_parse? (hvalid : s.validate = .ok ()) (hquiet : l.Quiet h)
    (hlayer : l.fileLayer h = .ok file)
    (hsections : ∀ sec : Section, ∃ es, file.find? sec.name = some (.table es) ∧
      ∀ i, sec.Sets i (Tree.lookup (sec.layout.name i) es) s) : l.load h = .ok s := by
  refine (load_eq_ok_iff hquiet.namesFields).mpr ⟨file, hlayer, fun sec => ?_, hvalid⟩
  obtain ⟨es, hes, hfields⟩ := hsections sec
  refine ⟨?_, fun i => ?_⟩
  · rw [fileEntries?, if_neg (hquiet.not_enters _), hes]
    rfl
  · rw [given_of_not_enters (hquiet.not_enters _), hes]
    exact hfields i

/-- Saved settings are loaded as they were if their numbers fit 64 bits with a sign; else the file
is refused. -/
theorem load_of_save (hvalid : s.validate = .ok ())
    (hpool : ∀ n ∈ s.blobStore.poolSize, n ≤ maxWord32) (hsave : save s path h = .ok h')
    (hpath : l.path = some path) (hquiet : l.Quiet h) :
    l.load h' =
      if (numbers s).all isSigned64 then .ok s else .error (extraction ⟨.message, []⟩) := by
  obtain ⟨henvironment, hlayer⟩ := fileLayer_of_write (write_of_save hsave) hpath
  have hquiet' : l.Quiet h' := fun v hv => hquiet v (henvironment ▸ hv)
  have hparse : (Toml.parse? (Toml.ofSettings s)).isSome ↔ ∀ n ∈ numbers s, isSigned64 n :=
    isSome_parse?_iff.trans isSome_tree?_written_iff
  rw [← List.all_eq_true] at hparse
  cases hfile : Toml.parse? (Toml.ofSettings s) with
  | some file =>
      rw [hfile] at hlayer hparse
      rw [if_pos (hparse.mp rfl)]
      refine load_of_parse? hvalid hquiet' hlayer fun sec => ?_
      obtain ⟨es, hes, hfields⟩ := find?_of_parse? hfile sec
      refine ⟨es, hes, fun i => ?_⟩
      rw [hfields]
      exact sets_written hpool (List.all_eq_true.mp (hparse.mp rfl))
  | none =>
      rw [hfile] at hlayer hparse
      rw [if_neg (fun hnumbers => Bool.false_ne_true (hparse.mpr hnumbers)), load, read, tree,
        hlayer]
      rfl

/-! ## Texts with quotes, and a number of 64 bits -/

/-- A host with one directory and nothing else. -/
def bareHost : Host where
  files := []
  directories := ["/srv"]
  environment := [("PATH", "/bin")]
  workingDirectory := none
  home := none
  configDirectory := none

/-- Settings with texts of several lines, quotes of both kinds, backslashes, control characters and
letters beyond ASCII. -/
def quotedSettings : Settings where
  rotation := { intervalSecs := 0x7fff_ffff_ffff_ffff }
  blobStore :=
    { provider := "\u00e9 \"\"\"\" \x07", uri := some "\n\\ \"\"\" 'a' \r\n", spaceName := some "",
      poolSize := some maxWord32 }
  secrets := { secretKeyBase := some "C:\\keys\t\"main\"" }
  logging := { fileOutput := some "it's \\ \"\"\"" }

/-- Texts with quotes, backslashes and control characters come back as they were. -/
theorem load_quotedSettings :
    ∃ h', save quotedSettings "/srv/authkeys.toml" bareHost = .ok h' ∧
      load { path := some "/srv/authkeys.toml" } h' = .ok quotedSettings := by
  have hvalid : quotedSettings.validate = .ok () := by decide
  have hquiet : Quiet { path := some "/srv/authkeys.toml" } bareHost := by decide
  have hsave : save quotedSettings "/srv/authkeys.toml" bareHost =
      .ok { bareHost with files := [("/srv/authkeys.toml", Toml.ofSettings quotedSettings)] } := by
    rfl
  have hload :=
    load_of_save (l := { path := some "/srv/authkeys.toml" }) hvalid (by decide) hsave rfl hquiet
  rw [if_pos (by decide)] at hload
  exact ⟨_, hsave, hload⟩

/-- Settings whose interval has 64 bits. -/
def longInterval : Settings where
  rotation := { intervalSecs := 0x8000_0000_0000_0000 }
  secrets := { secretKeyBase := some "s" }

/-- The settings are valid and can be saved, but the file is refused. -/
theorem refused_longInterval :
    longInterval.validate = .ok () ∧ ∃ h',
      save longInterval "/srv/authkeys.toml" bareHost = .ok h' ∧
      load { path := some "/srv/authkeys.toml" } h' = .error (extraction ⟨.message, []⟩) := by
  refine ⟨by decide,
    { bareHost with files := [("/srv/authkeys.toml", Toml.ofSettings longInterval)] }, ?_, ?_⟩
  · rfl
  · decide +kernel

end Loader

end Config

end Keyring
