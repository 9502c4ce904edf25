import Keyring.Proofs.Text.Decimal
import Keyring.Toml.Document

/-! # Numbers of a document

A natural number is written as its decimal digits. At the end of a line they are read back if the
number fits 64 bits with a sign; else they are refused. Digits alone are neither a date nor a float.
-/

namespace Keyring.Toml

open Config (Tree)

variable {ds cs rest : List Char} {n v : Nat} {c : Char}

/-! ## Digits -/

theorem hexValue?_of_isDigit (h : c.isDigit) : Json.Reader.hexValue? c = some (c.toNat - 48) := by
  rw [Char.isDigit, Bool.and_eq_true, decide_eq_true_iff, decide_eq_true_iff] at h
  exact if_pos h

/-- Decimal digits have the value that they spell. -/
theorem natOfDigits_eq (h : ∀ c ∈ ds, c.isDigit) :
    natOfDigits 10 ds = Nat.ofDigitChars 10 ds 0 := by
  have hfold (m : Nat) : ds.foldl (fun n d => n * 10 + (Json.Reader.hexValue? d).getD 0) m =
      Nat.ofDigitChars 10 ds m := by
    induction ds generalizing m with
    | nil => rfl
    | cons c ds ih =>
        rw [List.foldl_cons, ih fun d hd => h d (List.mem_cons_of_mem _ hd),
          hexValue?_of_isDigit (h c List.mem_cons_self), Nat.ofDigitChars_cons, Nat.mul_comm]
        rfl
  exact hfold 0

/-- The digits of a number are read as the number. -/
theorem natOfDigits_toDigits (n : Nat) : natOfDigits 10 (Nat.toDigits 10 n) = n := by
  rw [natOfDigits_eq fun _ => isDigit_of_mem_toDigits, Nat.ofDigitChars_toDigits (by decide)
    (by decide)]

/-- Digits end at the end of the line. -/
theorem digitsBy_append (hne : ds ≠ []) (h : ∀ c ∈ ds, c.isDigit) (rest : List Char) :
    digitsBy Char.isDigit (ds ++ '\n' :: rest) = some (ds, '\n' :: rest) := by
  induction ds with
  | nil => exact absurd rfl hne
  | cons c ds ih =>
      have hc : c.isDigit := h c List.mem_cons_self
      cases ds with
      | nil =>
          rw [List.singleton_append, digitsBy.eq_def]
          simp only [hc, if_true]
          rfl
      | cons d ds =>
          have hd : d.isDigit := h d (List.mem_cons_of_mem _ List.mem_cons_self)
          have hrest := ih (List.cons_ne_nil _ _) fun c hc => h c (List.mem_cons_of_mem _ hc)
          rw [List.cons_append] at hrest
          rw [List.cons_append, List.cons_append, digitsBy.eq_def]
          simp only [hc, if_true]
          split
          · next heq => exact absurd (List.cons.inj heq).1 (ne_of_class hd rfl)
          · next heq =>
              obtain ⟨rfl, rfl⟩ := List.cons.inj heq
              rw [if_pos hd, hrest]
              rfl
          · contradiction

/-! ## Natural numbers -/

/-- The digits of a number: a zero alone, or digits that do not start with one. -/
theorem toDigits_cases (n : Nat) :
    Nat.toDigits 10 n = ['0'] ∨
      ∃ c ds, Nat.toDigits 10 n = c :: ds ∧ c ≠ '0' ∧ c.isDigit ∧ ∀ d ∈ ds, d.isDigit := by
  by_cases hn : n = 0
  · subst hn
    exact .inl rfl
  · obtain ⟨c, ds, hds, hc⟩ := exists_toDigits_eq_cons hn
    have hdigits : ∀ d ∈ c :: ds, d.isDigit := hds ▸ fun d => isDigit_of_mem_toDigits
    exact .inr ⟨c, ds, hds, hc, List.forall_mem_cons.mp hdigits⟩

/-- Digits are read up to the end of their line. -/
theorem decimalDigits_toDigits (n : Nat) (rest : List Char) :
    decimalDigits (Nat.toDigits 10 n ++ '\n' :: rest) = some (Nat.toDigits 10 n, '\n' :: rest) := by
  obtain hzero | ⟨c, ds, hds, hc, hdigit, hdigits⟩ := toDigits_cases n
  · rw [hzero]
    rfl
  · have hread :=
      digitsBy_append (List.cons_ne_nil c ds) (List.forall_mem_cons.mpr ⟨hdigit, hdigits⟩) rest
    rw [hds, decimalDigits.eq_def]
    split
    · next heq => exact absurd (List.cons.inj heq).1 hc
    · exact hread

/-- Digits have no sign. -/
theorem sign_toDigits (n : Nat) (rest : List Char) :
    sign (Nat.toDigits 10 n ++ '\n' :: rest) = (false, Nat.toDigits 10 n ++ '\n' :: rest) := by
  obtain hzero | ⟨c, ds, hds, -, hdigit, -⟩ := toDigits_cases n
  · rw [hzero]
    rfl
  · rw [hds, List.cons_append, sign.eq_def]
    split
    · next heq => exact absurd (List.cons.inj heq).1 (ne_of_class hdigit rfl)
    · next heq => exact absurd (List.cons.inj heq).1 (ne_of_class hdigit rfl)
    · rfl

/-- A number is read back if it fits 64 bits with a sign. -/
theorem integer_toDigits (n : Nat) (rest : List Char) :
    integer (Nat.toDigits 10 n ++ '\n' :: rest) =
      (int64? false n).map fun m => (m, '\n' :: rest) := by
  have hsign := sign_toDigits n rest
  have hdigits := decimalDigits_toDigits n rest
  have hvalue := natOfDigits_toDigits n
  -- a zero stands alone, so it marks no base
  obtain hzero | ⟨c, ds, hds, hc, -, -⟩ := toDigits_cases n
  · rw [hzero] at hvalue ⊢
    rw [← hvalue]
    rfl
  · rw [hds] at hsign hdigits hvalue ⊢
    rw [integer.eq_def]
    split
    · next heq => exact absurd (List.cons.inj heq).1 hc
    · next heq => exact absurd (List.cons.inj heq).1 hc
    · next heq => exact absurd (List.cons.inj heq).1 hc
    · rw [hsign]
      simp only [hdigits, hvalue, Option.bind_eq_bind, Option.bind_some]
      cases int64? false n <;> rfl

/-- Digits alone are no float. -/
theorem float_toDigits (n : Nat) (rest : List Char) :
    float (Nat.toDigits 10 n ++ '\n' :: rest) = none := by
  have hdigits := decimalDigits_toDigits n rest
  have hfraction : fraction ('\n' :: rest) = none := rfl
  have hexponent : exponent ('\n' :: rest) = none := rfl
  rw [float, sign_toDigits]
  simp only
  split
  · next heq =>
      rw [heq] at hdigits
      contradiction
  · next heq =>
      rw [heq] at hdigits
      contradiction
  · rw [hdigits]
    simp only [Option.bind_eq_bind, Option.bind_some, hfraction, hexponent, Option.bind_none]

/-! ## Dates -/

/-- Where digits have been read off digits, digits are left. -/
theorem exists_of_fixedDigits {k : Nat} (h : ∀ c ∈ ds, c.isDigit)
    (hread : fixedDigits k (ds ++ '\n' :: rest) = some (v, cs)) :
    ∃ ds' : List Char, (∀ c ∈ ds', c.isDigit) ∧ cs = ds' ++ '\n' :: rest := by
  rw [fixedDigits] at hread
  split at hread
  · next htaken =>
      obtain ⟨-, rfl⟩ := Prod.mk.inj (Option.some.inj hread)
      have hk : k ≤ ds.length := by
        -- otherwise the line end would have been taken for a digit
        refine Nat.le_of_not_lt fun hlt => ?_
        have hmem : '\n' ∈ (ds ++ '\n' :: rest).take k := by
          obtain ⟨j, rfl⟩ := Nat.exists_eq_add_of_lt hlt
          rw [Nat.add_assoc, List.take_length_add_append, List.take_succ_cons]
          exact List.mem_append_right _ List.mem_cons_self
        exact absurd (List.all_eq_true.mp htaken.2 _ hmem) (by decide)
      refine ⟨ds.drop k, fun c hc => h c (List.mem_of_mem_drop hc), ?_⟩
      rw [List.drop_append_of_le_length hk]
  · contradiction

/-- What follows digits is a digit or the end of the line. -/
theorem literally_digits (hc : c.isDigit = false) (hne : c ≠ '\n') (h : ∀ c ∈ ds, c.isDigit)
    (rest : List Char) : literally c (ds ++ '\n' :: rest) = none := by
  cases ds with
  | nil => exact if_neg hne.symm
  | cons d ds => exact if_neg (ne_of_class (h d List.mem_cons_self) hc)

/-- Digits alone are no date. -/
theorem dateTime_digits (h : ∀ c ∈ ds, c.isDigit) (rest : List Char) :
    dateTime (ds ++ '\n' :: rest) = none := by
  have hdate : date (ds ++ '\n' :: rest) = none := by
    rw [date]
    cases hread : fixedDigits 4 (ds ++ '\n' :: rest) with
    | none => rfl
    | some year =>
        obtain ⟨ds', hds', hcs⟩ := exists_of_fixedDigits h hread
        simp only [Option.bind_eq_bind, Option.bind_some, hcs, literally_digits (c := '-') rfl
          (by decide) hds',
          Option.bind_none]
  have htime : time (ds ++ '\n' :: rest) = none := by
    rw [time]
    cases hread : fixedBetween 2 0 23 (ds ++ '\n' :: rest) with
    | none => rfl
    | some hour =>
        obtain ⟨⟨m, cs⟩, hdigits, hbound⟩ := Option.bind_eq_some_iff.mp hread
        obtain ⟨ds', hds', rfl⟩ := exists_of_fixedDigits h hdigits
        dsimp only at hbound
        split at hbound
        · obtain rfl := Option.some.inj hbound
          simp only [Option.bind_eq_bind, Option.bind_some, literally_digits (c := ':') rfl
            (by decide) hds',
            Option.bind_none]
        · contradiction
  rw [dateTime, hdate, htime]
  rfl

end Keyring.Toml
