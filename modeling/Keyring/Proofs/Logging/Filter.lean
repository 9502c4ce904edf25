import Keyring.Logging.Log
import Keyring.Proofs.Text.Decimal
import Keyring.Proofs.Text.Hex

/-! # The level that is logged

A level is configured by a word, and the filter reads the same word once more. Both take the names
of the five levels alike, in any case. The second name of a level is no name to the filter: it takes
it for the target of a directive that lets everything through, so nothing is logged but what comes
from targets of that name.
-/

namespace Keyring

/-! ## Words -/

/-- A text without the separator is one piece. -/
theorem Text.splitAtChar_eq_singleton {sep : Char} {cs : List Char} (h : ∀ c ∈ cs, c ≠ sep) :
    splitAtChar sep cs = [cs] := by
  induction cs with
  | nil => rfl
  | cons c cs ih =>
      obtain ⟨hc, hcs⟩ := List.forall_mem_cons.mp h
      rw [splitAtChar, if_neg hc, ih hcs]

/-- No letter is a blank. -/
theorem not_isBlank_of_isAlpha {c : Char} (h : c.isAlpha) : ¬ Text.isBlank c := by
  have hrange := isAlpha_iff.mp h
  simp only [Text.isBlank, Bool.or_eq_true, Bool.and_eq_true, decide_eq_true_iff, beq_iff_eq]
  omega

/-! ## Names of levels -/

namespace Logging

variable {w word : String} {l : Level}

/-- The names that the configuration and the filter share, in lower case. -/
def levelNames : List (String × Level) :=
  [("trace", .trace), ("debug", .debug), ("info", .info), ("warn", .warn), ("error", .error)]

/-- A configured level is one of the shared names or the second name of a warning. -/
theorem eq_warning_or_mem_levelNames (h : Level.ofLower? w = some l) :
    (w = "warning" ∧ l = .warn) ∨ (w, l) ∈ levelNames := by
  rw [Level.ofLower?] at h
  split at h
  · next hw =>
      rw [hw, ← Option.some.inj h]
      exact .inr (by decide)
  split at h
  · next hw =>
      rw [hw, ← Option.some.inj h]
      exact .inr (by decide)
  split at h
  · next hw =>
      rw [hw, ← Option.some.inj h]
      exact .inr (by decide)
  split at h
  · next hw =>
      rw [← Option.some.inj h]
      rcases hw with rfl | rfl
      · exact .inr (by decide)
      · exact .inl ⟨rfl, rfl⟩
  split at h
  · next hw =>
      rw [hw, ← Option.some.inj h]
      exact .inr (by decide)
  · contradiction

/-- The filter knows the shared names. -/
theorem ofLower?_levelNames :
    ∀ p ∈ levelNames, p.1 ≠ "warning" ∧ Threshold.ofLower? p.1 = some (some p.2) := by decide

/-- The filter does not know the second name of a warning. -/
theorem ofLower?_warning : Threshold.ofLower? "warning" = none := by decide

/-- A configured level is a word. -/
theorem letters_of_parse (h : Level.parse word = .ok l) :
    Level.ofLower? (Text.lowerAscii word) = some l ∧ word.toList ≠ [] ∧ ∀ c ∈ word.toList,
      c.isAlpha := by
  have hlower : Level.ofLower? (Text.lowerAscii word) = some l := by
    rw [Level.parse] at h
    split at h
    · next heq => rw [heq, Except.ok.inj h]
    · contradiction
  have hnames : ∀ p ∈ ("warning", Level.warn) :: levelNames, p.1.toList ≠ [] ∧
      p.1.toList.all Char.isLower := by
    decide
  have hmem : (Text.lowerAscii word, l) ∈ ("warning", Level.warn) :: levelNames := by
    obtain ⟨hw, hl⟩ | hmem := eq_warning_or_mem_levelNames hlower
    · rw [hw, hl]
      exact List.mem_cons_self
    · exact List.mem_cons_of_mem _ hmem
  obtain ⟨hne, hletters⟩ := hnames _ hmem
  rw [Text.lowerAscii, String.toList_ofList] at hne hletters
  refine ⟨hlower, fun heq => hne (by rw [heq]; rfl), fun c hc => ?_⟩
  exact isAlpha_of_isLower_toLower (List.all_eq_true.mp hletters _ (List.mem_map_of_mem hc))

/-! ## Directives of one word -/

/-- A word is one directive. -/
theorem parseLossy_word (hne : word.toList ≠ []) (h : ∀ c ∈ word.toList, c.isAlpha) :
    Filter.parseLossy word = ⟨[Directive.ofWord word]⟩ := by
  have hpieces : Filter.pieces word = [word] := by
    have hsplit : Text.splitAtChar ',' word.toList = [word.toList] :=
      Text.splitAtChar_eq_singleton fun c hc => ne_of_class (h c hc) rfl
    rw [Filter.pieces, hsplit, List.filter_cons_of_pos (by simpa using hne)]
    exact congrArg (· :: []) String.ofList_toList
  have hparse : Directive.parse? word = some (Directive.ofWord word) := by
    obtain ⟨c, cs, hcons⟩ := List.exists_cons_of_ne_nil hne
    have hc : c.isAlpha := h c (hcons ▸ List.mem_cons_self)
    have hstart : Directive.isStart c := by
      simp [Directive.isStart, isAlphanum_iff.mpr (.inl hc)]
    have hinside : ∀ c ∈ word.toList, !(decide (c = '=') || decide (c = '[')) := by
      intro c hc
      have hequals : c ≠ '=' := ne_of_class (h c hc) rfl
      have hbracket : c ≠ '[' := ne_of_class (h c hc) rfl
      simp [hequals, hbracket]
    have hcut : Directive.cut (fun c => c = '=' || c = '[') (c :: cs) = (word, []) := by
      rw [← hcons, Directive.cut, List.takeWhile_eq_self_iff.mpr hinside,
        List.dropWhile_eq_nil_iff.mpr hinside, String.ofList_toList]
    rw [Directive.parse?, Text.trimChars_eq_self fun c hc => not_isBlank_of_isAlpha (h c hc), hcons,
      Directive.ofChars?.eq_def]
    split
    · contradiction
    · next heq => exact absurd (List.cons.inj heq).1 (ne_of_class hc rfl)
    · next heq =>
        obtain ⟨rfl, rfl⟩ := List.cons.inj heq
        rw [if_pos hstart, hcut]
  rw [Filter.parseLossy, hpieces, List.filterMap_cons, hparse]
  rfl

/-- A word that is no number names a threshold as its lower case does. -/
theorem parse?_word (hne : word.toList ≠ []) (h : ∀ c ∈ word.toList, c.isAlpha) :
    Threshold.parse? word = Threshold.ofLower? (Text.lowerAscii word) := by
  obtain ⟨c, cs, hcons⟩ := List.exists_cons_of_ne_nil hne
  have hc : c.isAlpha := h c (hcons ▸ List.mem_cons_self)
  have hdigits : Decimal.digits? (c :: cs) = none := by
    rw [Decimal.digits?, List.all_cons, not_isDigit_of_isAlpha hc]
    rfl
  have hnumber : Decimal.unsigned? 6 word.toList = none := by
    rw [hcons, Decimal.unsigned?, hdigits]
    · rfl
    · exact fun _ heq => absurd (List.cons.inj heq).1 (ne_of_class hc rfl)
  rw [Threshold.parse?, hnumber]

/-! ## Events -/

/-- The filter of a configured level. -/
theorem admits_parseLossy (h : Level.parse word = .ok l) (e : Event) :
    (Filter.parseLossy word).admits e =
      if Text.lowerAscii word = "warning" then word.toList.isPrefixOf e.target.toList
      else l.atLeast e.level := by
  obtain ⟨hlower, hne, hletters⟩ := letters_of_parse h
  have hthreshold := parse?_word hne hletters
  rw [parseLossy_word hne hletters, Directive.ofWord, hthreshold]
  obtain ⟨hw, -⟩ | hmem := eq_warning_or_mem_levelNames hlower
  · -- the word is a target, and all levels are let through
    have hall : Threshold.admits (some .trace) e.level := by cases e.level <;> rfl
    rw [hw, ofLower?_warning, if_pos rfl, Filter.admits, Filter.deciding?]
    cases htarget : word.toList.isPrefixOf e.target.toList with
    | false => simp [Directive.concerns, Directive.isStatic, htarget]
    | true => simp [Directive.concerns, Directive.isStatic, htarget, hall]
  · obtain ⟨hne, hshared⟩ := ofLower?_levelNames _ hmem
    rw [hshared, if_neg hne]
    rfl

/-! ## Installation -/

namespace Log

variable {log : Log} {s : LogSettings}

/-- Opening a file installs nothing. -/
theorem installed_touch (place : Place) (log : Log) :
    (log.touch place).installed = log.installed := by
  rw [touch]
  split <;> rfl

/-- Writing an event installs nothing. -/
theorem installed_emit (e : Event) (log : Log) : (log.emit e).installed = log.installed := by
  rw [emit]
  split
  · rfl
  split
  · split <;> rfl
  · rfl

/-- Logging that was not installed before is installed with the filter of its settings. -/
theorem install_eq_ok (hlevel : Level.parse s.level = .ok l) (hnew : log.installed = none)
    (environment : Option String) :
    (log.install environment s).1 = .ok () ∧
      (log.install environment s).2.installed =
        some ⟨.choose environment s.level, s.jsonFormat, s.fileOutput.map Place.ofPath⟩ := by
  rw [install, hlevel]
  cases s.fileOutput with
  | none =>
      simp only [Option.map_none, hnew]
      exact ⟨trivial, installed_emit _ _⟩
  | some path =>
      simp only [Option.map_some, installed_touch, hnew]
      exact ⟨trivial, installed_emit _ _⟩

/-- With nothing to override the configured level, events are let through exactly if they are at
least as severe, unless the level is given by its second name: then what counts is the target of an
event, and not its level. -/
theorem admits_of_install (hlevel : Level.parse s.level = .ok l) (hnew : log.installed = none) :
    ∃ i, (log.install none s).1 = .ok () ∧ (log.install none s).2.installed = some i ∧
      (∀ e, i.filter.admits e =
        if Text.lowerAscii s.level = "warning" then s.level.toList.isPrefixOf e.target.toList
        else l.atLeast e.level) ∧
      ((∀ e, i.filter.admits e = l.atLeast e.level) ↔ Text.lowerAscii s.level ≠ "warning") := by
  obtain ⟨hok, hinstalled⟩ := install_eq_ok hlevel hnew none
  have hadmits := admits_parseLossy hlevel
  refine ⟨_, hok, hinstalled, hadmits, fun hagree hwarning => ?_, fun hne e => ?_⟩
  · -- an error without a target is severe enough, but its target is not that of the directive
    obtain ⟨hlower, hne, -⟩ := letters_of_parse hlevel
    let e : Event := ⟨.error, "", "", []⟩
    have htarget : (Filter.parseLossy s.level).admits e = false := by
      rw [hadmits, if_pos hwarning]
      obtain ⟨c, cs, hcons⟩ := List.exists_cons_of_ne_nil hne
      rw [hcons]
      rfl
    have hsevere : (Filter.parseLossy s.level).admits e = true := by
      refine (hagree e).trans ?_
      cases l <;> rfl
    rw [htarget] at hsevere
    contradiction
  · exact (hadmits e).trans (if_neg hne)

/-- Settings with the level written in either case. -/
def loudSettings : LogSettings where
  level := "wArN"

/-- The case of a level does not matter. -/
theorem admits_loudSettings :
    ∃ i, (install none loudSettings {}).1 = .ok () ∧
      (install none loudSettings {}).2.installed = some i ∧
      ∀ e, i.filter.admits e = Level.warn.atLeast e.level := by
  have hlevel : Level.parse loudSettings.level = .ok .warn := by decide
  obtain ⟨i, hok, hinstalled, -, hagree⟩ :=
    admits_of_install hlevel (rfl : ({} : Log).installed = none)
  exact ⟨i, hok, hinstalled, hagree.mpr (by decide)⟩

/-- The second name of a level is accepted, but errors are not let through. -/
theorem not_admits_warning :
    Level.parse "warning" = .ok .warn ∧
      (install none { level := "warning" } {}).2.installed.map
        (·.filter.admits ⟨.error, "r2d2", "connection refused", []⟩) =
        some false := by
  decide

end Log

end Logging

end Keyring
