import Keyring.Proofs.Config.Layers
import Keyring.Proofs.Config.Secrets
import Keyring.Proofs.Toml.Numbers

/-! # A key in a variable

The text of a variable is taken for a number before it meets the field that it is for. So a key in
hexadecimal arrives as it is unless all its digits are decimal and the number they spell fits 64
bits: then it is no text any more, and the field refuses it.
-/

namespace Keyring.Config

namespace Environment

/-! ## What digits are taken for -/

/-- Whether a text is taken for a number: decimal digits that spell one of 64 bits. -/
def isNumber (text : String) : Bool :=
  !text.toList.isEmpty && text.toList.all Char.isDigit
    && decide (Nat.ofDigitChars 10 text.toList 0 < 0x1_0000_0000_0000_0000)

variable {text : String} {cs : List Char} {c : Char}

/-- Digits are read as a number exactly if there is one at least and nothing else. -/
theorem digits?_eq (cs : List Char) :
    digits? cs =
      if !cs.isEmpty && cs.all Char.isDigit then some (Nat.ofDigitChars 10 cs 0) else none := by
  rw [digits?]
  split
  · next h =>
      rw [Bool.and_eq_true, List.all_eq_true] at h
      rw [Toml.natOfDigits_eq h.2]
  · rfl

/-- Digits have no sign. -/
theorem int?_digits (h : ∀ c ∈ text.toList, Hex.isDigit c) :
    int? text.toList =
      if isNumber text then some (Nat.ofDigitChars 10 text.toList 0 : Int) else none := by
  rw [int?.eq_def]
  split
  · next heq => exact absurd (h _ (heq ▸ List.mem_cons_self)) (by decide)
  · next heq => exact absurd (h _ (heq ▸ List.mem_cons_self)) (by decide)
  · dsimp only
    rw [digits?_eq, isNumber]
    cases !text.toList.isEmpty && text.toList.all Char.isDigit with
    | false => rfl
    | true => simp

/-- No hexadecimal digit is a space. -/
theorem isSpace_of_isDigit (h : Hex.isDigit c) : isSpace c = false := by
  simp only [isSpace, Bool.or_eq_false_iff, decide_eq_false_iff_not]
  exact ⟨⟨⟨⟨ne_of_class h rfl, ne_of_class h rfl⟩, ne_of_class h rfl⟩, ne_of_class h rfl⟩,
    ne_of_class h rfl⟩

/-- A hexadecimal digit may stand in a plain value. -/
theorem isValueChar_of_isDigit (h : Hex.isDigit c) : isValueChar c := by
  simp only [isValueChar, Bool.and_eq_true, decide_eq_true_iff]
  exact ⟨⟨⟨⟨ne_of_class h rfl, ne_of_class h rfl⟩, ne_of_class h rfl⟩, ne_of_class h rfl⟩,
    ne_of_class h rfl⟩

/-- Digits have no point, so they are a number without one, or a text. -/
theorem plain_digits (h : ∀ c ∈ text.toList, Hex.isDigit c) :
    plain text.toList =
      if isNumber text then .int (Nat.ofDigitChars 10 text.toList 0) else .text text := by
  have hpoint : text.toList.contains '.' = false := by
    rw [List.contains_eq_mem, decide_eq_false_iff_not]
    exact fun hmem => absurd (h _ hmem) (by decide)
  rw [plain, hpoint, int?_digits h]
  cases isNumber text with
  | false => exact congrArg Tree.text String.ofList_toList
  | true => rfl

/-- No digit starts anything but a plain value: `false` goes on with a letter that is none. -/
theorem value_digits (fuel : Nat) (h : ∀ c ∈ cs, Hex.isDigit c) :
    value (fuel + 1) cs = some (plain cs, []) := by
  have hspace : skipSpace cs = cs := by
    cases cs with
    | nil => rfl
    | cons c cs =>
        exact List.dropWhile_cons_of_neg (by simp [isSpace_of_isDigit (h c List.mem_cons_self)])
  have hplain : plainValue cs = some (plain cs, []) := by
    rw [plainValue, List.takeWhile_eq_self_iff.mpr fun c hc => isValueChar_of_isDigit (h c hc),
      Text.trimChars_eq_self fun c hc => Hex.not_isBlank_of_isDigit (h c hc),
      List.dropWhile_eq_nil_iff.mpr fun c hc => isValueChar_of_isDigit (h c hc)]
  have hnot {d : Char} (hd : d ∈ cs) (hno : Hex.isDigit d = false) : False :=
    ne_of_class (h d hd) hno rfl
  rw [value, hspace]
  split
  · exact (hnot (d := 't') (by simp) rfl).elim
  · exact (hnot (d := 'l') (by simp) rfl).elim
  · exact (hnot (d := '\x7b') (by simp) rfl).elim
  · exact (hnot (d := '[') (by simp) rfl).elim
  · exact (hnot (d := '"') (by simp) rfl).elim
  · exact (hnot (d := '\x27') (by simp) rfl).elim
  · exact (hnot (d := '\x27') (by simp) rfl).elim
  · rw [hplain]
    rfl

/-- A text of digits is read as the number it spells if it fits 64 bits, and else taken as it is. -/
theorem parse_digits (h : ∀ c ∈ text.toList, Hex.isDigit c) :
    parse text =
      if isNumber text then .int (Nat.ofDigitChars 10 text.toList 0) else .text text := by
  rw [parse, value_digits _ h]
  exact plain_digits h

/-! ## One variable -/

variable {start : String} {environment : List (String × String)}

/-- Variables that give no path change nothing. -/
theorem tree_filter (start : String) (environment : List (String × String)) :
    tree start (environment.filter fun v => (path? start v.1).isSome) = tree start environment := by
  induction environment using List.reverseRecOn with
  | nil => rfl
  | append_singleton environment v ih =>
      rw [List.filter_append, tree_concat]
      cases hpath : path? start v.1 with
      | none => simpa [hpath] using ih
      | some path => simp [hpath, tree_concat, ih]

end Environment

namespace Loader

open Environment (isNumber)

/-- One variable is all that says something about the settings: the file has nothing to say, and the
other variables give no path. -/
structure OnlyVariable (l : Loader) (h : Host) (path : List String) (text : String) : Prop where
  file : l.fileLayer h = .ok (.table [])
  sole : ∃ name, Environment.path? l.environmentPrefix name = some path ∧
    h.environment.filter (fun v => (Environment.path? l.environmentPrefix v.1).isSome) =
      [(name, text)]

variable {l : Loader} {h : Host} {key : String}

/-- A single variable is the whole tree. -/
theorem OnlyVariable.tree_eq {path : List String} {text : String}
    (hone : OnlyVariable l h path text) :
    l.tree h =
      .ok ((Tree.table []).merge
        (.merge (.table []) (Environment.nest (Environment.parse text) path))) := by
  obtain ⟨name, hpath, hvariables⟩ := hone.sole
  rw [tree, hone.file, Except.ok_bind, ← Environment.tree_filter, hvariables, Environment.tree,
    List.foldl_cons, hpath]
  rfl

/-- The default settings with an explicit key pass the checks. -/
theorem validate_withKey (hkey : Settings.isHexKey key) :
    (Settings.withKey key).validate = .ok () := by
  have hne : key.isEmpty = false := by
    rw [Settings.isHexKey, Bool.and_eq_true, decide_eq_true_iff] at hkey
    rw [← Bool.not_eq_true, String.isEmpty_iff]
    rintro rfl
    exact absurd hkey.1 (by decide)
  have hnonempty : SecretSettings.nonempty (some key) = some key := by
    rw [SecretSettings.nonempty, Option.filter_some, hne]
    rfl
  have hsecrets : Settings.checkSecrets (Settings.withKey key).secrets = .ok () := by
    rw [Settings.checkSecrets_eq_ok_iff, SecretSettings.isConfigured, Settings.withKey, hnonempty]
    exact ⟨rfl, by rintro _ ⟨⟩; exact hkey⟩
  have hlogging : Settings.checkLogging {} = .ok () := by decide
  rw [Settings.validate, Except.bind_unit_eq_ok_iff, Except.bind_unit_eq_ok_iff,
    Except.bind_unit_eq_ok_iff]
  exact ⟨rfl, rfl, hsecrets, hlogging⟩

/-- A key arrives character by character, unless its digits are taken for a number: then the field
refuses it. -/
theorem load_keyVariable (hkey : Settings.isHexKey key)
    (hone : OnlyVariable l h ["secrets", "encryption_key"] key) :
    l.load h =
      if isNumber key then .error (extraction ⟨.invalidType, ["secrets", "encryption_key"]⟩)
      else .ok (Settings.withKey key) := by
  have hdigits : ∀ c ∈ key.toList, Hex.isDigit c := by
    rw [Settings.isHexKey, Bool.and_eq_true, List.all_eq_true] at hkey
    exact hkey.2
  rw [load, read, hone.tree_eq, Except.ok_bind, Environment.parse_digits hdigits]
  cases isNumber key with
  | true => rfl
  | false =>
      show (Settings.withKey key).validate >>= (fun _ => .ok (Settings.withKey key)) = _
      rw [validate_withKey hkey]
      rfl

/-! ## A key with and without letters -/

/-- A host without a file, and with one variable of the process. -/
def keyedHost (key : String) : Host where
  files := []
  directories := []
  environment := [("PATH", "/bin"), ("AUTHKEYS__SECRETS__ENCRYPTION_KEY", key)]
  workingDirectory := none
  home := none
  configDirectory := none

/-- The host has no file and one variable. -/
theorem onlyVariable_keyedHost (key : String) :
    OnlyVariable {} (keyedHost key) ["secrets", "encryption_key"] key where
  file := rfl
  sole := by
    have hpath : Environment.path? "AUTHKEYS" "AUTHKEYS__SECRETS__ENCRYPTION_KEY" =
        some ["secrets", "encryption_key"] := by decide
    have hother : Environment.path? "AUTHKEYS" "PATH" = none := by decide
    exact ⟨_, hpath, by simp [keyedHost, hpath, hother]⟩

/-- A key whose digits are all decimal; the number they spell takes more than 64 bits. -/
def decimalKey : String := "1000000000000000000000000000000000000000000000000000000000000000"

/-- A key that spells the number one. -/
def zerosKey : String := "0000000000000000000000000000000000000000000000000000000000000001"

/-- A key of decimal digits is read as text, for it is too great to be a number. -/
theorem load_decimalKey :
    Settings.isHexKey decimalKey ∧ isNumber decimalKey = false ∧
      load {} (keyedHost decimalKey) = .ok (Settings.withKey decimalKey) := by
  have hkey : Settings.isHexKey decimalKey := by decide
  have hnumber : isNumber decimalKey = false := by decide
  have hload := load_keyVariable hkey (onlyVariable_keyedHost decimalKey)
  rw [hnumber] at hload
  exact ⟨hkey, hnumber, hload⟩

/-- Zeros and a one are 64 hexadecimal digits and arrive from a file, but from a variable they are
refused. -/
theorem refused_zerosKey :
    Settings.isHexKey zerosKey ∧
      load {} (hostWith ("[secrets]\nencryption_key = \"" ++ zerosKey ++ "\"\n") []) =
        .ok (Settings.withKey zerosKey) ∧
      load {} (keyedHost zerosKey) =
        .error (extraction ⟨.invalidType, ["secrets", "encryption_key"]⟩) := by
  decide +kernel

end Loader

end Keyring.Config
