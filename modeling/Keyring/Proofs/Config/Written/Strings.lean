import Keyring.Proofs.Json.Scalar
import Keyring.Toml.Printer
import Keyring.Toml.Strings

/-! # Reading strings that were written

Every text is read back from its written form at the end of a line. What stands between the quotes
is read character by character, except that quotes in a string of several lines are met in runs: a
run of two at most is part of the text, and one that closes the string may be longer by two.
-/

namespace Keyring.Toml

variable {c q : Char} {cs s rest : List Char} {fuel n : Nat}

/-! ## Characters -/

/-- The four digits of a control character spell it. -/
theorem codePoint_control (h : c.toNat < 0x80) (rest : List Char) :
    codePoint 4 ((Hex.ofNatPadded 4 c.toNat).map Char.toUpper ++ rest) = some (c, rest) := by
  have hdigits : ∀ n < 0x80, ((Hex.ofNatPadded 4 n).map Char.toUpper).length = 4 ∧
      hexNumber? ((Hex.ofNatPadded 4 n).map Char.toUpper) = some n := by decide
  obtain ⟨hlength, hnumber⟩ := hdigits c.toNat h
  rw [codePoint]
  simp only [List.take_left' hlength, List.drop_left' hlength, hlength, hnumber, Nat.lt_irrefl,
    if_false, Option.bind_eq_bind, Option.bind_some]
  rw [scalar?, if_pos (.inl (by omega)), Char.ofNat_toNat]
  rfl

/-- What is neither a control character nor a line feed can stand for itself. -/
theorem isPlain_of_not_isControl (h : isControl c = false) (hne : c ≠ '\n') : isPlain c := by
  rw [isPlain, Bool.or_eq_true, decide_eq_true_iff, Bool.and_eq_true, decide_eq_true_iff,
    bne_iff_ne]
  rw [isControl, Bool.and_eq_false_iff, Bool.and_eq_false_iff, Bool.or_eq_false_iff,
    decide_eq_false_iff_not, decide_eq_false_iff_not, decide_eq_false_iff_not,
    decide_eq_false_iff_not] at h
  obtain (⟨hge, hdelete⟩ | htab) | hfeed := h
  · exact .inr ⟨Nat.not_lt.mp hge, hdelete⟩
  · exact .inl (Decidable.not_not.mp htab)
  · exact absurd hne hfeed

/-- A line ends at line feeds and returns only. -/
theorem lineEnd?_cons (hfeed : c ≠ '\n') (hreturn : c ≠ '\r') (cs : List Char) :
    lineEnd? (c :: cs) = none := by
  rw [lineEnd?.eq_def]
  split
  · next heq => exact absurd (List.cons.inj heq).1 hfeed
  · next heq => exact absurd (List.cons.inj heq).1 hreturn
  · rfl

/-- A character stands in a basic string for itself, or is named by an escape. -/
theorem escapeChar_cases (c : Char) :
    (escapeChar c = [c] ∧ isPlain c ∧ c ≠ '"' ∧ c ≠ '\\' ∧ c ≠ '\n' ∧ c ≠ '\r') ∨
      ∃ d ds, escapeChar c = '\\' :: d :: ds ∧ isBlank d = false ∧ d ≠ '\n' ∧ d ≠ '\r' ∧
        ∀ rest, escape (d :: (ds ++ rest)) = some (c, rest) := by
  rw [escapeChar]
  split
  · next h =>
      subst h
      exact .inr ⟨'b', [], rfl, rfl, by decide, by decide, fun _ => rfl⟩
  split
  · next h =>
      subst h
      exact .inr ⟨'t', [], rfl, rfl, by decide, by decide, fun _ => rfl⟩
  split
  · next h =>
      subst h
      exact .inr ⟨'n', [], rfl, rfl, by decide, by decide, fun _ => rfl⟩
  split
  · next h =>
      subst h
      exact .inr ⟨'f', [], rfl, rfl, by decide, by decide, fun _ => rfl⟩
  split
  · next h =>
      subst h
      exact .inr ⟨'r', [], rfl, rfl, by decide, by decide, fun _ => rfl⟩
  split
  · next h =>
      subst h
      exact .inr ⟨'"', [], rfl, rfl, by decide, by decide, fun _ => rfl⟩
  split
  · next h =>
      subst h
      exact .inr ⟨'\\', [], rfl, rfl, by decide, by decide, fun _ => rfl⟩
  split
  · next h =>
      refine .inr ⟨'u', _, rfl, rfl, by decide, by decide, codePoint_control ?_⟩
      rw [isControl, Bool.and_eq_true, Bool.and_eq_true, Bool.or_eq_true, decide_eq_true_iff,
        decide_eq_true_iff] at h
      omega
  · next _ _ hfeed _ hreturn hquote hslash hcontrol =>
      exact .inl ⟨rfl, isPlain_of_not_isControl (Bool.not_eq_true _ ▸ hcontrol) hfeed, hquote,
        hslash, hfeed, hreturn⟩

/-! ## One line -/

/-- One character of a basic string is read back. -/
theorem basicBody_escapeChar (fuel : Nat) (c : Char) (rest : List Char) :
    basicBody (fuel + 1) (escapeChar c ++ rest) =
      (basicBody fuel rest).map fun p => (c :: p.1, p.2) := by
  obtain ⟨hself, hplain, hquote, hslash, -, -⟩ | ⟨d, ds, hescape, -, -, -, hread⟩ :=
    escapeChar_cases c
  · rw [hself, List.singleton_append, basicBody.eq_def]
    dsimp only
    split
    · contradiction
    · next heq => exact absurd (List.cons.inj heq).1 hquote
    · next heq => exact absurd (List.cons.inj heq).1 hslash
    · next heq =>
        obtain ⟨rfl, rfl⟩ := List.cons.inj heq
        rw [if_pos hplain]
        cases basicBody fuel rest <;> rfl
  · rw [hescape, List.cons_append, List.cons_append, basicBody.eq_def]
    simp only [hread, Option.bind_eq_bind, Option.bind_some]
    cases basicBody fuel rest <;> rfl

/-- Escaped characters are read back up to the quote. -/
theorem basicBody_flatMap (hfuel : cs.length < fuel) (rest : List Char) :
    basicBody fuel (cs.flatMap escapeChar ++ '"' :: rest) = some (cs, rest) := by
  induction cs generalizing fuel with
  | nil =>
      obtain ⟨fuel, rfl⟩ := Nat.exists_eq_add_one_of_ne_zero (Nat.ne_zero_of_lt hfuel)
      rfl
  | cons c cs ih =>
      obtain ⟨fuel, rfl⟩ := Nat.exists_eq_add_one_of_ne_zero (Nat.ne_zero_of_lt hfuel)
      rw [List.flatMap_cons, List.append_assoc, basicBody_escapeChar,
        ih (Nat.lt_of_succ_lt_succ hfuel)]
      rfl

/-- No character is written as nothing or with a quote first. -/
theorem exists_escapeChar_eq_cons (c : Char) : ∃ d ds, escapeChar c = d :: ds ∧ d ≠ '"' := by
  obtain ⟨hself, -, hquote, -⟩ | ⟨d, ds, hescape, -⟩ := escapeChar_cases c
  · exact ⟨c, [], hself, hquote⟩
  · exact ⟨'\\', d :: ds, hescape, by decide⟩

/-- Escapes do not make a text shorter, so its length is fuel enough to read it. -/
theorem length_le_flatMap (cs : List Char) : cs.length ≤ (cs.flatMap escapeChar).length := by
  induction cs with
  | nil => exact Nat.le_refl 0
  | cons c cs ih =>
      obtain ⟨d, ds, hescape, -⟩ := exists_escapeChar_eq_cons c
      rw [List.flatMap_cons, List.length_append, List.length_cons, hescape, List.length_cons]
      omega

/-- A literal string has no quote inside and no control character but the tab. -/
theorem literalBody_append (h : ∀ c ∈ cs, c ≠ '\'' ∧ isPlain c) (rest : List Char) :
    literalBody (cs ++ '\'' :: rest) = some (cs, rest) := by
  induction cs with
  | nil => rfl
  | cons c cs ih =>
      obtain ⟨hquote, hplain⟩ := h c List.mem_cons_self
      rw [List.cons_append, literalBody.eq_def]
      split
      · contradiction
      · next heq => exact absurd (List.cons.inj heq).1 hquote
      · next heq =>
          obtain ⟨rfl, rfl⟩ := List.cons.inj heq
          rw [if_pos hplain, ih fun d hd => h d (List.mem_cons_of_mem _ hd)]
          rfl

/-! ## Several lines -/

/-- A reader of the rest of a string of several lines meets its quotes in runs. -/
def TakesRuns (q : Char) (body : (fuel : Nat) → Reader (List Char)) : Prop :=
  ∀ fuel cs, body (fuel + 1) (q :: cs) =
    match quoteRun ((q :: cs).takeWhile (· = q)).length with
    | (kept, used, true) => some (List.replicate kept q, (q :: cs).drop used)
    | (kept, used, false) =>
      (body fuel ((q :: cs).drop used)).map fun p => (List.replicate kept q ++ p.1, p.2)

/-- Double quotes in a basic form of several lines are read in runs. -/
theorem takesRuns_basicLines : TakesRuns '"' basicLines := by
  intro fuel cs
  rw [basicLines.eq_def]
  simp only
  obtain ⟨kept, used, ends⟩ := quoteRun _
  cases ends with
  | true => rfl
  | false =>
      simp only [Bool.false_eq_true, if_false]
      cases basicLines fuel (('"' :: cs).drop used) <;> rfl

/-- Single quotes in a literal form of several lines are read in runs. -/
theorem takesRuns_literalLines : TakesRuns '\'' literalLines := by
  intro fuel cs
  rw [literalLines.eq_def]
  simp only
  obtain ⟨kept, used, ends⟩ := quoteRun _
  cases ends with
  | true => rfl
  | false =>
      simp only [Bool.false_eq_true, if_false]
      cases literalLines fuel (('\'' :: cs).drop used) <;> rfl

/-- A run of quotes ends where another character follows. -/
theorem takeWhile_run (n : Nat) (h : cs.head? ≠ some q) :
    (List.replicate n q ++ cs).takeWhile (· = q) = List.replicate n q := by
  have hstop : cs.takeWhile (· = q) = [] := by
    cases cs with
    | nil => rfl
    | cons c cs =>
        have hne : c ≠ q := fun heq => h (congrArg some heq)
        simp [hne]
  rw [List.takeWhile_append_of_pos (by simp), hstop, List.append_nil]

namespace TakesRuns

variable {body : (fuel : Nat) → Reader (List Char)}

/-- At most two quotes are part of the text. -/
theorem inside (h : TakesRuns q body) (hn : n ≤ 2) (hhead : cs.head? ≠ some q)
    (hread : ∀ fuel, cs.length < fuel → body fuel cs = some (s, rest))
    (hfuel : n + cs.length < fuel) :
    body fuel (List.replicate n q ++ cs) = some (List.replicate n q ++ s, rest) := by
  cases n with
  | zero => exact hread fuel (by omega)
  | succ n =>
      obtain ⟨fuel, rfl⟩ := Nat.exists_eq_add_one_of_ne_zero (Nat.ne_zero_of_lt hfuel)
      have hrun := takeWhile_run (n + 1) hhead
      have htext : List.replicate (n + 1) q ++ cs = q :: (List.replicate n q ++ cs) := rfl
      have hdrop : (List.replicate (n + 1) q ++ cs).drop (n + 1) = cs :=
        List.drop_left' List.length_replicate
      rw [htext] at hrun hdrop ⊢
      rw [h, hrun, List.length_replicate, quoteRun, if_pos (by omega)]
      simp only [hdrop, hread fuel (by omega), Option.map_some]

/-- Before the three that close the string two more may stand. -/
theorem closing (h : TakesRuns q body) (hn : n ≤ 2) (hhead : rest.head? ≠ some q) (fuel : Nat) :
    body (fuel + 1) (List.replicate n q ++ q :: q :: q :: rest) =
      some (List.replicate n q, rest) := by
  have htext : List.replicate n q ++ q :: q :: q :: rest = List.replicate (n + 3) q ++ rest := by
    rw [← List.replicate_append_replicate, List.append_assoc]
    rfl
  have hcons : List.replicate (n + 3) q ++ rest = q :: (List.replicate (n + 2) q ++ rest) := rfl
  have hrun := takeWhile_run (n + 3) hhead
  have hdrop : (List.replicate (n + 3) q ++ rest).drop (n + 3) = rest :=
    List.drop_left' List.length_replicate
  rw [hcons] at hrun hdrop
  rw [htext, hcons, h, hrun, List.length_replicate, quoteRun, if_neg (by omega), Nat.add_sub_cancel,
    Nat.min_eq_left hn, Nat.min_eq_left (by omega)]
  simp only [hdrop]

end TakesRuns

/-- One character of a string of several lines is read back. -/
theorem basicLines_escapeChar (fuel : Nat) (c : Char) (rest : List Char) :
    basicLines (fuel + 1) (escapeChar c ++ rest) =
      (basicLines fuel rest).map fun p => (c :: p.1, p.2) := by
  obtain ⟨hself, hplain, hquote, hslash, hfeed, hreturn⟩ |
      ⟨d, ds, hescape, hblank, hfeed, hreturn, hread⟩ := escapeChar_cases c
  · rw [hself, List.singleton_append, basicLines.eq_def]
    dsimp only
    split
    · contradiction
    · next heq => exact absurd (List.cons.inj heq).1 hquote
    · next heq => exact absurd (List.cons.inj heq).1 hslash
    · next heq =>
        obtain ⟨rfl, rfl⟩ := List.cons.inj heq
        rw [lineEnd?_cons hfeed hreturn]
        simp only [hplain, if_true]
        cases basicLines fuel rest <;> rfl
  · -- no line end follows the backslash
    have hline : lineEnd? (skipBlanks (d :: (ds ++ rest))) = none := by
      rw [skipBlanks, List.dropWhile_cons_of_neg (by simp [hblank]), lineEnd?_cons hfeed hreturn]
    rw [hescape, List.cons_append, List.cons_append, basicLines.eq_def]
    simp only [hline, hread, Option.bind_eq_bind, Option.bind_some]
    cases basicLines fuel rest <;> rfl

/-- A line feed in a string of several lines stands for itself. -/
theorem basicLines_feed (fuel : Nat) (rest : List Char) :
    basicLines (fuel + 1) ('\n' :: rest) =
      (basicLines fuel rest).map fun p => ('\n' :: p.1, p.2) := by
  rw [basicLines.eq_def]
  simp only [lineEnd?]
  cases basicLines fuel rest <;> rfl

/-- What a literal string of several lines holds beside its quotes stands for itself. -/
theorem literalLines_cons (hquote : c ≠ '\'') (hreturn : c ≠ '\r') (hplain : c = '\n' ∨ isPlain c)
    (fuel : Nat) (rest : List Char) :
    literalLines (fuel + 1) (c :: rest) =
      (literalLines fuel rest).map fun p => (c :: p.1, p.2) := by
  rw [literalLines.eq_def]
  dsimp only
  split
  · contradiction
  · next heq => exact absurd (List.cons.inj heq).1 hquote
  · next heq =>
      obtain ⟨rfl, rfl⟩ := List.cons.inj heq
      by_cases hfeed : c = '\n'
      · subst hfeed
        simp only [lineEnd?]
        cases literalLines fuel rest <;> rfl
      · rw [lineEnd?_cons hfeed hreturn]
        simp only [hplain.resolve_left hfeed, if_true]
        cases literalLines fuel rest <;> rfl

/-! ## The text between the quotes -/

/-- What is no quote of a run is written without one in front, and is read as one character. -/
theorem linesBody_cons {run : Nat} (h : ¬ (c = '"' ∧ run < 2)) (cs : List Char) :
    ∃ d ds, linesBody run (c :: cs) = d :: (ds ++ linesBody 0 cs) ∧ d ≠ '"' ∧ ∀ fuel rest,
      basicLines (fuel + 1) (d :: (ds ++ rest)) =
        (basicLines fuel rest).map fun p => (c :: p.1, p.2) := by
  rw [linesBody, if_neg h]
  by_cases hfeed : c = '\n'
  · subst hfeed
    exact ⟨'\n', [], rfl, by decide, basicLines_feed⟩
  · obtain ⟨d, ds, hescape, hne⟩ := exists_escapeChar_eq_cons c
    rw [if_neg hfeed]
    refine ⟨d, ds, by rw [hescape, List.cons_append], hne, fun fuel rest => ?_⟩
    rw [← List.cons_append, ← hescape]
    exact basicLines_escapeChar fuel c rest

/-- The text of a basic string of several lines is read back. Quotes that were written before the
rest of it are met in one run with those that it starts with. -/
theorem basicLines_linesBody {run : Nat} (hrun : run ≤ 2) (hhead : rest.head? ≠ some '"')
    (hfuel : run + (linesBody run cs ++ '"' :: '"' :: '"' :: rest).length < fuel) :
    basicLines fuel (List.replicate run '"' ++ (linesBody run cs ++ '"' :: '"' :: '"' :: rest)) =
      some (List.replicate run '"' ++ cs, rest) := by
  induction cs generalizing run fuel with
  | nil =>
      obtain ⟨fuel, rfl⟩ := Nat.exists_eq_add_one_of_ne_zero (Nat.ne_zero_of_lt hfuel)
      rw [linesBody, List.nil_append, List.append_nil, takesRuns_basicLines.closing hrun hhead]
  | cons c cs ih =>
      by_cases hquote : c = '"' ∧ run < 2
      · -- one more quote of the run
        rw [linesBody, if_pos hquote, hquote.1] at hfuel ⊢
        have hmore :
            basicLines fuel
              (List.replicate (run + 1) '"' ++
              (linesBody (run + 1) cs ++ '"' :: '"' :: '"' :: rest)) =
            some (List.replicate (run + 1) '"' ++ cs, rest) :=
          ih hquote.2 (by simpa [Nat.add_assoc, Nat.add_comm] using hfuel)
        rw [List.replicate_succ', List.append_assoc, List.append_assoc] at hmore
        exact hmore
      · -- the run ends, and the rest of the text is read from here on
        obtain ⟨d, ds, htext, hne, hread⟩ := linesBody_cons hquote cs
        rw [htext] at hfuel ⊢
        refine takesRuns_basicLines.inside hrun (fun heq => hne (Option.some.inj heq))
          (fun fuel hfuel => ?_) hfuel
        obtain ⟨fuel, rfl⟩ := Nat.exists_eq_add_one_of_ne_zero (Nat.ne_zero_of_lt hfuel)
        rw [List.cons_append, List.length_cons, List.append_assoc, List.length_append] at hfuel
        have hbody :
            basicLines fuel
              (List.replicate 0 '"' ++ (linesBody 0 cs ++ '"' :: '"' :: '"' :: rest)) =
            some (List.replicate 0 '"' ++ cs, rest) :=
          ih (Nat.zero_le 2) (by omega)
        rw [List.replicate_zero, List.nil_append, List.nil_append] at hbody
        rw [List.cons_append, List.append_assoc, hread, hbody]
        rfl

/-- No run of quotes is longer than the longest one. -/
theorem le_longestRun (q : Char) (run best : Nat) (cs : List Char) :
    run ≤ longestRun q run best cs ∧ best ≤ longestRun q run best cs := by
  induction cs generalizing run best with
  | nil => exact ⟨Nat.le_max_left _ _, Nat.le_max_right _ _⟩
  | cons c cs ih =>
      rw [longestRun]
      split
      · exact ⟨Nat.le_of_succ_le (ih _ _).1, (ih _ _).2⟩
      · exact Nat.max_le.mp (ih _ _).2

/-- The text of a literal string of several lines is read back, if it has no longer runs of quotes
than two. -/
theorem literalLines_append {run best : Nat} (hrun : longestRun '\'' run best cs ≤ 2)
    (hplain : ∀ c ∈ cs, c ≠ '\r' ∧ (c = '\n' ∨ isPlain c)) (hhead : rest.head? ≠ some '\'')
    (hfuel : run + (cs ++ '\'' :: '\'' :: '\'' :: rest).length < fuel) :
    literalLines fuel (List.replicate run '\'' ++ (cs ++ '\'' :: '\'' :: '\'' :: rest)) =
      some (List.replicate run '\'' ++ cs, rest) := by
  have hle : run ≤ 2 := Nat.le_trans (le_longestRun _ _ _ _).1 hrun
  induction cs generalizing run best fuel with
  | nil =>
      obtain ⟨fuel, rfl⟩ := Nat.exists_eq_add_one_of_ne_zero (Nat.ne_zero_of_lt hfuel)
      rw [List.nil_append, List.append_nil, takesRuns_literalLines.closing hle hhead]
  | cons c cs ih =>
      obtain ⟨⟨hreturn, hc⟩, hcs⟩ := List.forall_mem_cons.mp hplain
      rw [longestRun] at hrun
      by_cases hquote : c = '\''
      · subst hquote
        rw [if_pos rfl] at hrun
        have hmore :
            literalLines fuel
              (List.replicate (run + 1) '\'' ++ (cs ++ '\'' :: '\'' :: '\'' :: rest)) =
            some (List.replicate (run + 1) '\'' ++ cs, rest) :=
          ih hrun hcs (by simpa [Nat.add_assoc, Nat.add_comm] using hfuel)
            (Nat.le_trans (le_longestRun _ _ _ _).1 hrun)
        rw [List.replicate_succ', List.append_assoc, List.append_assoc] at hmore
        exact hmore
      · rw [if_neg hquote] at hrun
        refine takesRuns_literalLines.inside hle (fun heq => hquote (Option.some.inj heq))
          (fun fuel hfuel => ?_) hfuel
        obtain ⟨fuel, rfl⟩ := Nat.exists_eq_add_one_of_ne_zero (Nat.ne_zero_of_lt hfuel)
        rw [List.cons_append, List.length_cons] at hfuel
        have hbody :
            literalLines fuel (List.replicate 0 '\'' ++ (cs ++ '\'' :: '\'' :: '\'' :: rest)) =
            some (List.replicate 0 '\'' ++ cs, rest) :=
          ih hrun hcs (by omega) (Nat.zero_le 2)
        rw [List.replicate_zero, List.nil_append, List.nil_append] at hbody
        rw [List.cons_append, literalLines_cons hquote hreturn hc, hbody]
        rfl

/-! ## Written forms -/

/-- A text without line feeds does not start with a line end. -/
theorem lineEnd?_linesBody (h : '\n' ∉ cs) (rest : List Char) :
    lineEnd? (linesBody 0 cs ++ '"' :: rest) = none := by
  cases cs with
  | nil => exact lineEnd?_cons (by decide) (by decide) rest
  | cons c cs =>
      have hfeed : c ≠ '\n' := fun heq => h (heq ▸ List.mem_cons_self)
      by_cases hquote : c = '"' ∧ 0 < 2
      · rw [linesBody, if_pos hquote, hquote.1]
        exact lineEnd?_cons (by decide) (by decide) _
      · rw [linesBody, if_neg hquote, if_neg hfeed]
        obtain ⟨hself, -, -, -, -, hreturn⟩ | ⟨d, ds, hescape, -⟩ := escapeChar_cases c
        · rw [hself]
          exact lineEnd?_cons hfeed hreturn _
        · rw [hescape]
          exact lineEnd?_cons (by decide) (by decide) _

/-- The line feed that opens a text is dropped, and nothing else. -/
theorem skipFirstLineEnd_opening {t : Traits} (h : t.lineFeed = false → lineEnd? cs = none) :
    skipFirstLineEnd (opening t ++ cs) = cs := by
  rw [opening]
  cases hfeed : t.lineFeed with
  | true => rfl
  | false => exact congrArg (Option.getD · cs) (h hfeed)

/-- A text whose longest run of quotes has none has no quote. -/
theorem ne_of_longestRun {run best : Nat} (h : longestRun q run best cs = 0) : ∀ c ∈ cs, c ≠ q := by
  induction cs generalizing run best with
  | nil => exact List.forall_mem_nil _
  | cons c cs ih =>
      rw [longestRun] at h
      split at h
      · have hle := (le_longestRun q (run + 1) best cs).1
        omega
      · next hne => exact List.forall_mem_cons.mpr ⟨hne, ih h⟩

/-- A text whose traits have no line feed has none. -/
theorem not_mem_of_lineFeed (h : (traits cs).lineFeed = false) : '\n' ∉ cs := by
  have hcontains : cs.contains '\n' = false := h
  rwa [List.contains_eq_mem, decide_eq_false_iff_not] at hcontains

/-- A text without control characters holds line feeds and plain characters. -/
theorem plain_of_control (h : (traits cs).control = false) :
    ∀ c ∈ cs, c ≠ '\r' ∧ (c = '\n' ∨ isPlain c) := by
  intro c hc
  have hcontrol : isControl c = false := Bool.not_eq_true _ ▸ List.any_eq_false.mp h c hc
  constructor
  · rintro rfl
    contradiction
  · exact Decidable.or_iff_not_imp_left.mpr (isPlain_of_not_isControl hcontrol)

/-- The literal form is for texts of one line without control characters and single quotes. -/
theorem of_form_eq_literal {t : Traits} (h : form t = .literal) :
    t.control = false ∧ t.singles = 0 ∧ t.lineFeed = false := by
  rw [form] at h
  split at h
  · contradiction
  split at h
  · next hliteral => simpa [and_assoc] using hliteral
  split at h
  · contradiction
  split at h
  · contradiction
  split at h <;> contradiction

/-- The literal form of several lines is for texts without control characters and without three
single quotes in a row. -/
theorem of_form_eq_literalLines {t : Traits} (h : form t = .literalLines) :
    t.control = false ∧ t.singles ≤ 2 := by
  rw [form] at h
  split at h
  · contradiction
  split at h
  · contradiction
  split at h
  · contradiction
  split at h
  · next hliteral => simpa using hliteral
  split at h <;> contradiction

/-- What starts with one quote, or with two and something else, is a string of one line. -/
theorem string_quote (h : ∀ rest, cs ≠ '"' :: '"' :: rest) :
    string ('"' :: cs) = (basicBody (cs.length + 1) cs).map fun (s, r) => (String.ofList s, r) := by
  rw [string.eq_def]
  split
  · next heq => exact absurd (List.cons.inj heq).2 (h _)
  · next heq => exact absurd (List.cons.inj heq).1 (by decide)
  · next heq =>
      obtain ⟨-, rfl⟩ := List.cons.inj heq
      rfl
  · next heq => exact absurd (List.cons.inj heq).1 (by decide)
  · next _ _ hno _ => exact (hno _ rfl).elim

/-- A single quote that no two others follow opens a literal form. -/
theorem string_singleQuote (h : ∀ rest, cs ≠ '\'' :: '\'' :: rest) :
    string ('\'' :: cs) = (literalBody cs).map fun (s, r) => (String.ofList s, r) := by
  rw [string.eq_def]
  split
  · next heq => exact absurd (List.cons.inj heq).1 (by decide)
  · next heq => exact absurd (List.cons.inj heq).2 (h _)
  · next heq => exact absurd (List.cons.inj heq).1 (by decide)
  · next heq =>
      obtain ⟨-, rfl⟩ := List.cons.inj heq
      rfl
  · next hno => exact (hno _ rfl).elim

/-- A text in basic form is read back. -/
theorem string_basic (cs rest : List Char) :
    string ('"' :: (cs.flatMap escapeChar ++ '"' :: '\n' :: rest)) =
      some (String.ofList cs, '\n' :: rest) := by
  have hlength := length_le_flatMap cs
  rw [string_quote, basicBody_flatMap (by rw [List.length_append]; omega)]
  · rfl
  · intro tail heq
    cases cs with
    | nil => exact absurd (List.cons.inj (List.cons.inj heq).2).1 (by decide)
    | cons c cs =>
        obtain ⟨d, ds, hescape, hne⟩ := exists_escapeChar_eq_cons c
        rw [List.flatMap_cons, hescape] at heq
        exact hne (List.cons.inj heq).1

/-- A text in literal form is read back. -/
theorem string_literal (h : ∀ c ∈ cs, c ≠ '\'' ∧ isPlain c) (rest : List Char) :
    string ('\'' :: (cs ++ '\'' :: '\n' :: rest)) = some (String.ofList cs, '\n' :: rest) := by
  rw [string_singleQuote, literalBody_append h]
  · rfl
  · intro tail heq
    cases cs with
    | nil => exact absurd (List.cons.inj (List.cons.inj heq).2).1 (by decide)
    | cons c cs => exact (h c List.mem_cons_self).1 (List.cons.inj heq).1

/-- A text in basic form of several lines is read back. -/
theorem string_basicLines (cs rest : List Char) :
    string ('"' :: '"' :: '"' ::
      (opening (traits cs) ++ (linesBody 0 cs ++ '"' :: '"' :: '"' :: '\n' :: rest))) =
      some (String.ofList cs, '\n' :: rest) := by
  rw [string, skipFirstLineEnd_opening fun hfeed => lineEnd?_linesBody
    (not_mem_of_lineFeed hfeed) _]
  generalize htext :
    opening (traits cs) ++ (linesBody 0 cs ++ '"' :: '"' :: '"' :: '\n' :: rest) = text
  have hfuel :
      0 + (linesBody 0 cs ++ '"' :: '"' :: '"' :: '\n' :: rest).length < text.length + 1 := by
    rw [← htext, Nat.zero_add]
    exact Nat.lt_succ_of_le (List.suffix_append _ _).length_le
  have hread := basicLines_linesBody (Nat.zero_le 2) (by simp) hfuel
  rw [List.replicate_zero, List.nil_append, List.nil_append] at hread
  rw [hread]
  rfl

/-- A text in literal form of several lines is read back. -/
theorem string_literalLines (hcontrol : (traits cs).control = false)
    (hsingles : (traits cs).singles ≤ 2) (rest : List Char) :
    string ('\'' :: '\'' :: '\'' ::
      (opening (traits cs) ++ (cs ++ '\'' :: '\'' :: '\'' :: '\n' :: rest))) =
      some (String.ofList cs, '\n' :: rest) := by
  have hline (hfeed : (traits cs).lineFeed = false) :
      lineEnd? (cs ++ '\'' :: '\'' :: '\'' :: '\n' :: rest) = none := by
    cases cs with
    | nil => rfl
    | cons c cs =>
        refine lineEnd?_cons (fun heq => not_mem_of_lineFeed hfeed (heq ▸ List.mem_cons_self)) ?_ _
        exact (plain_of_control hcontrol c List.mem_cons_self).1
  rw [string, skipFirstLineEnd_opening hline]
  generalize htext : opening (traits cs) ++ (cs ++ '\'' :: '\'' :: '\'' :: '\n' :: rest) = text
  have hfuel : 0 + (cs ++ '\'' :: '\'' :: '\'' :: '\n' :: rest).length < text.length + 1 := by
    rw [← htext, Nat.zero_add]
    exact Nat.lt_succ_of_le (List.suffix_append _ _).length_le
  have hread := literalLines_append hsingles (plain_of_control hcontrol) (by simp) hfuel
  rw [List.replicate_zero, List.nil_append, List.nil_append] at hread
  rw [hread]
  rfl

/-- Every text is read back from its written form at the end of a line. -/
theorem string_textChars (cs rest : List Char) :
    string (textChars cs ++ '\n' :: rest) = some (String.ofList cs, '\n' :: rest) := by
  rw [textChars]
  cases hform : form (traits cs) with
  | basic =>
      simp only [List.cons_append, List.append_assoc, List.nil_append]
      exact string_basic cs rest
  | literal =>
      obtain ⟨hcontrol, hsingles, hfeed⟩ := of_form_eq_literal hform
      simp only [List.cons_append, List.append_assoc, List.nil_append]
      refine string_literal (fun c hc => ⟨ne_of_longestRun hsingles c hc, ?_⟩) rest
      exact (plain_of_control hcontrol c hc).2.resolve_left fun heq => not_mem_of_lineFeed hfeed
        (heq ▸ hc)
  | basicLines =>
      simp only [List.cons_append, List.append_assoc, List.nil_append]
      exact string_basicLines cs rest
  | literalLines =>
      obtain ⟨hcontrol, hsingles⟩ := of_form_eq_literalLines hform
      simp only [List.cons_append, List.append_assoc, List.nil_append]
      exact string_literalLines hcontrol hsingles rest

end Keyring.Toml
