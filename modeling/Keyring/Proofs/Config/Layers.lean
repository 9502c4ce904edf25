import Keyring.Config.Loader
import Keyring.Proofs.Config.Environment
import Keyring.Proofs.Config.Sections
import Keyring.Proofs.Config.Validity
import Keyring.Proofs.Toml.Document

/-! # Layers of settings

A field that a variable names has what the last such variable says; else it has what the file gives
it, else its default. A section that the file gives as an array sets its fields by position, and a
variable that leads into the section replaces the array as a whole.
-/

namespace Keyring.Config.Loader

open Environment (Enters last?)

variable {l : Loader} {h : Host} {s : Settings} {file : Tree} {sec : Section}

/-! ## What the layers give -/

/-- The path is that of a field, or of a key that settings do not have: not that of a section as a
whole, and not one that leads into a field. -/
def Admissible (path : List String) : Prop :=
  ∀ (sec : Section) (rest : List String), path = sec.name :: rest →
    rest ≠ [] ∧ ∀ (i : sec.layout.Index) (inside : List String),
      rest = sec.layout.name i :: inside → inside = []

/-- The variables name fields and keys that settings do not have. -/
def NamesFields (l : Loader) (h : Host) : Prop :=
  ∀ v ∈ h.environment, ∀ path, Environment.path? l.environmentPrefix v.1 = some path →
    Admissible path

/-- A path of a section and a field is admissible. -/
theorem admissible_pair (m k : String) : Admissible [m, k] := by
  rintro sec _ ⟨⟩
  refine ⟨List.cons_ne_nil _ _, ?_⟩
  rintro i _ ⟨⟩
  rfl

/-- A path that enters no section is admissible. -/
theorem admissible_of_unknown {m : String} (hm : ∀ sec : Section, sec.name ≠ m)
    (rest : List String) : Admissible (m :: rest) := by
  intro sec rest hpath
  exact absurd (List.cons.inj hpath).1.symm (hm sec)

/-- The entries that the file gives a section: those of its table, or its array by position. If a
variable leads into the section, only a table counts. -/
def fileEntries? (l : Loader) (h : Host) (file : Tree) (sec : Section) :
    Option (List (String × Tree)) :=
  if Enters l.environmentPrefix sec.name h.environment then
    some ((file.find? sec.name).getD .absent).entries
  else sec.entries? (file.find? sec.name)

/-- What the layers give a field: what the last variable says that names it, else what the file
gives. -/
def given (l : Loader) (h : Host) (file : Tree) (sec : Section) (i : sec.layout.Index) :
    Option Tree :=
  last? l.environmentPrefix [sec.name, sec.layout.name i] h.environment <|>
    (l.fileEntries? h file sec).bind (Tree.lookup (sec.layout.name i))

variable {i : sec.layout.Index}

/-- Where a variable enters a section, each field is given by the last variable that names it, or
else by the file. -/
theorem given_of_enters (hin : Enters l.environmentPrefix sec.name h.environment) :
    l.given h file sec i =
      (last? l.environmentPrefix [sec.name, sec.layout.name i] h.environment <|>
      Tree.lookup (sec.layout.name i) ((file.find? sec.name).getD .absent).entries) := by
  rw [given, fileEntries?, if_pos hin]
  rfl

/-- Where no variable enters a section, each field is given by the file. -/
theorem given_of_not_enters (hout : ¬ Enters l.environmentPrefix sec.name h.environment) :
    l.given h file sec i = (sec.entries? (file.find? sec.name)).bind
      (Tree.lookup (sec.layout.name i)) := by
  rw [given, fileEntries?, if_neg hout, Environment.last?_eq_none hout]
  rfl

/-! ## Reading the layers -/

/-- A file gives a tidy tree. -/
theorem tidy_fileLayer (hfile : l.fileLayer h = .ok file) : file.Tidy := by
  rw [fileLayer] at hfile
  split at hfile
  · rw [← Except.ok.inj hfile]
    exact .nil
  · split at hfile
    · next t hparse =>
        rw [← Except.ok.inj hfile]
        exact Toml.tidy_of_parse? hparse
    · contradiction

/-- A field of a merged section is read from what was laid over it, or else from the section
below. -/
theorem sets_mergeEntries_iff {below above : List (String × Tree)} {given : Option Tree}
    (habove : Entries.Sorted above)
    (hlaid : Environment.LaidOver given (Tree.lookup (sec.layout.name i) above)) :
    sec.Sets i (Tree.lookup (sec.layout.name i) (Tree.mergeEntries below above)) s ↔
      sec.Sets i (given <|> Tree.lookup (sec.layout.name i) below) s := by
  rw [Tree.lookup_mergeEntries habove]
  cases given with
  | none =>
      rw [show Tree.lookup (sec.layout.name i) above = none from hlaid]
      exact Iff.rfl
  | some t =>
      obtain ⟨lower, hfound⟩ := hlaid
      rw [hfound]
      show sec.layout.reading i _ = _ ↔ sec.layout.reading i t = _
      rw [Section.reading_merge, Section.reading_merge]

/-- A section of the merged tree can be read exactly if what the layers give its fields can be
read. -/
theorem entries?_merge_iff (hnames : l.NamesFields h) :
    (∃ es, sec.entries?
      ((file.merge (Environment.tree l.environmentPrefix h.environment)).find? sec.name) = some es ∧
        ∀ i, sec.Sets i (Tree.lookup (sec.layout.name i) es) s) ↔
      (l.fileEntries? h file sec).isSome ∧ ∀ i, sec.Sets i (l.given h file sec i) s := by
  have hsection :
      ∀ v ∈ h.environment, Environment.path? l.environmentPrefix v.1 ≠ some [sec.name] := by
    intro v hv hpath
    exact (hnames v hv _ hpath sec [] rfl).1 rfl
  obtain ⟨above, habove⟩ := Environment.tree_eq_table l.environmentPrefix h.environment
  have htidy : Tree.Tidy (.table above) := habove ▸ Environment.tidy_tree
  obtain ⟨hout, hnone⟩ | ⟨hin, fs, hfs⟩ := Environment.find?_tree_section hsection
  · -- no variable leads into the section, so it is the file's one
    rw [habove, Tree.find?, Tree.entries_table] at hnone
    rw [habove, Tree.find?_merge_table htidy.sorted, hnone]
    simp only [fileEntries?, if_neg hout, given_of_not_enters hout]
    cases sec.entries? (file.find? sec.name) <;> simp
  · -- the section is the variables' table, laid over the file's one if that is a table, too
    have hsets (i : sec.layout.Index) :
        sec.Sets i (Tree.lookup (sec.layout.name i)
          (Tree.mergeEntries ((file.find? sec.name).getD .absent).entries fs)) s ↔
        sec.Sets i (l.given h file sec i) s := by
      have hlaid := Environment.laidOver_tree hsection fun v hv inside hpath =>
        (hnames v hv _ hpath sec _ rfl).2 i inside rfl
      rw [hfs] at hlaid
      rw [given_of_enters hin]
      exact sets_mergeEntries_iff (Environment.tidy_tree.find? hfs).sorted hlaid
    rw [habove, Tree.find?, Tree.entries_table] at hfs
    rw [habove, Tree.find?_merge_table htidy.sorted, hfs]
    simp only [fileEntries?, if_pos hin, Tree.merge_table, ← hsets]
    constructor
    · rintro ⟨_, ⟨⟩, hread⟩
      exact ⟨rfl, hread⟩
    · rintro ⟨-, hread⟩
      exact ⟨_, rfl, hread⟩

/-- The merged tree can be read exactly if each section can be read, and then each field is what the
layers give it, or has its default. -/
theorem readSettings_merge_iff (hnames : l.NamesFields h) (hfile : file.Tidy) :
    readSettings false (file.merge (Environment.tree l.environmentPrefix h.environment)) = .ok s ↔
      ∀ sec, (l.fileEntries? h file sec).isSome ∧ ∀ i, sec.Sets i (l.given h file sec i) s := by
  have htidy : (file.merge (Environment.tree l.environmentPrefix h.environment)).Tidy :=
    hfile.merge Environment.tidy_tree
  refine Iff.trans ?_ (forall_congr' fun sec => entries?_merge_iff hnames)
  obtain ⟨above, habove⟩ := Environment.tree_eq_table l.environmentPrefix h.environment
  rw [habove, Tree.merge_table] at htidy ⊢
  exact readSettings_eq_ok_iff htidy

/-- Settings are loaded exactly if the file can be parsed, every section can be read and the result
is valid; then each field is what the layers give it, or has its default. -/
theorem load_eq_ok_iff (hnames : l.NamesFields h) :
    l.load h = .ok s ↔ ∃ file, l.fileLayer h = .ok file ∧
      (∀ sec, (l.fileEntries? h file sec).isSome ∧ ∀ i, sec.Sets i (l.given h file sec i) s) ∧
      s.validate = .ok () := by
  rw [load_eq_ok_iff_read, read, Except.bind_eq_ok_iff, Settings.validate_eq_ok_iff]
  simp only [tree, Except.bind_eq_ok_iff]
  constructor
  · rintro ⟨⟨_, ⟨file, hfile, ⟨⟩⟩, hread⟩, hvalid⟩
    exact ⟨file, hfile, (readSettings_merge_iff hnames (tidy_fileLayer hfile)).mp hread, hvalid⟩
  · rintro ⟨file, hfile, hsections, hvalid⟩
    exact ⟨⟨_, ⟨file, hfile, rfl⟩,
      (readSettings_merge_iff hnames (tidy_fileLayer hfile)).mpr hsections⟩, hvalid⟩

/-- Loaded settings are valid, and each field is what the layers give it, or has its default.
Nothing else in the file or among the variables matters: settings are the same wherever the layers
give the fields the same. -/
theorem layered_of_load (hnames : l.NamesFields h) (hload : l.load h = .ok s) :
    ∃ file, l.fileLayer h = .ok file ∧ (∀ (sec : Section) i, sec.Sets i (l.given h file sec i) s) ∧
      s.validate = .ok () ∧ ∀ (l' : Loader) (h' : Host) (file' : Tree), l'.NamesFields h' →
        l'.fileLayer h' = .ok file' →
        (∀ sec, (l'.fileEntries? h' file' sec).isSome) →
        (∀ sec i, l'.given h' file' sec i = l.given h file sec i) → l'.load h' = .ok s := by
  obtain ⟨file, hfile, hsections, hvalid⟩ := (load_eq_ok_iff hnames).mp hload
  refine ⟨file, hfile, fun sec => (hsections sec).2, hvalid, ?_⟩
  intro l' h' file' hnames' hfile' hentries hsame
  refine (load_eq_ok_iff hnames').mpr ⟨file', hfile', fun sec => ⟨hentries sec, fun i => ?_⟩,
    hvalid⟩
  rw [hsame]
  exact (hsections sec).2 i

/-! ## A file between defaults and environment -/

/-- A host with a configuration file in its working directory. -/
def hostWith (text : String) (environment : List (String × String)) : Host where
  files := [("/srv/authkeys.toml", text)]
  directories := ["/srv"]
  environment := environment
  workingDirectory := some "/srv"
  home := none
  configDirectory := none

/-- The file sets a field and a secret, a variable sets the other field of the rotation, and two
variables say nothing about the settings. -/
def tabledHost : Host :=
  hostWith "[rotation]\ninterval_secs = 900\n\n[secrets]\nsecret_key_base = \"swordfish\"\n"
    [("PATH", "/bin"), ("AUTHKEYS__COLOR", "blue"), ("authkeys__rotation__KEY_STRENGTH", "4096")]

/-- The variables of the host name fields. -/
theorem namesFields_tabledHost : NamesFields {} tabledHost := by
  intro v hv path hpath
  simp only [tabledHost, hostWith, List.mem_cons, List.not_mem_nil, or_false] at hv
  obtain rfl | rfl | rfl := hv
  · have hnone : Environment.path? "AUTHKEYS" "PATH" = none := by decide
    rw [hnone] at hpath
    contradiction
  · have hcolor : Environment.path? "AUTHKEYS" "AUTHKEYS__COLOR" = some ["color"] := by
      decide
    rw [hcolor] at hpath
    obtain rfl := Option.some.inj hpath
    exact admissible_of_unknown (by rintro ⟨⟩ <;> decide) []
  · have hstrength : Environment.path? "AUTHKEYS" "authkeys__rotation__KEY_STRENGTH" =
        some ["rotation", "key_strength"] := by decide
    rw [hstrength] at hpath
    obtain rfl := Option.some.inj hpath
    exact admissible_pair _ _

/-- A variable overrides one field of a section and leaves the others to the file. -/
theorem layered_tabledHost :
    ∃ s, load {} tabledHost = .ok s ∧ s.rotation = { intervalSecs := 900, keyStrength := 4096 } ∧
      ∃ file, fileLayer {} tabledHost = .ok file ∧ ∀ (sec : Section) i,
        sec.Sets i (given {} tabledHost file sec i) s := by
  have hload : load {} tabledHost = .ok
      { rotation := { intervalSecs := 900, keyStrength := 4096 },
        secrets := { secretKeyBase := some "swordfish" } } := by
    decide +kernel
  obtain ⟨file, hfile, hsets, -⟩ := layered_of_load namesFields_tabledHost hload
  exact ⟨_, hload, rfl, file, hfile, hsets⟩

/-- A variable for one field resets another field that the file gives by position. -/
theorem not_siblings_kept :
    ¬ ∀ (l : Loader) (h : Host) (v : String × String) (s s' : Settings) (sec : Section)
      (i j : sec.layout.Index),
      l.NamesFields { h with environment := v :: h.environment } →
      Environment.path? l.environmentPrefix v.1 = some [sec.name, sec.layout.name i] → i ≠ j →
      l.load h = .ok s → l.load { h with environment := v :: h.environment } = .ok s' →
      sec.layout.get j (sec.get s') = sec.layout.get j (sec.get s) := by
  have hother : RotationField.keyStrength ≠ .intervalSecs := by
    intro heq
    contradiction
  intro hkept
  let host := hostWith "rotation = [900, 1024]\n\n[secrets]\nsecret_key_base = \"swordfish\"\n"
  let v := ("AUTHKEYS__ROTATION__KEY_STRENGTH", "2048")
  have hfile : load {} (host []) = .ok
      { rotation := { intervalSecs := 900, keyStrength := 1024 },
        secrets := { secretKeyBase := some "swordfish" } } := by
    decide +kernel
  have hvariable : load {} (host [v]) = .ok
      { rotation := { intervalSecs := 3600, keyStrength := 2048 },
        secrets := { secretKeyBase := some "swordfish" } } := by
    decide +kernel
  have hpath : Environment.path? "AUTHKEYS" v.1 = some ["rotation", "key_strength"] := by
    decide
  have hnames : NamesFields {} (host [v]) := by
    intro w hw path hw'
    rw [List.mem_singleton.mp hw, hpath] at hw'
    obtain rfl := Option.some.inj hw'
    exact admissible_pair _ _
  have hsame : (3600 : Nat) = 900 :=
    hkept {} _ v _ _ .rotation .keyStrength .intervalSecs hnames hpath hother hfile hvariable
  exact absurd hsame (by decide)

end Keyring.Config.Loader
