import Keyring.Json.Printer
import Keyring.Json.Reader
import Keyring.Proofs.Text.Decimal

/-! # Reading JSON scalars that were written

Strings and integers are read back whatever follows them, as long as nothing follows an integer that
would extend it. The fuel of a reader is the length of the text, and no character is written as less
than one.
-/

namespace Keyring.Json.Reader

/-! ## Tokens -/

/-- There is no space to skip before another character. -/
theorem skipSpace_cons {c : Char} (h : isSpace c = false) (cs : List Char) :
    skipSpace (c :: cs) = c :: cs := by
  rw [skipSpace, List.dropWhile_cons, h]
  rfl

/-- A token is read where it stands. -/
theorem token_cons {c : Char} (h : isSpace c = false) (cs : List Char) :
    token c (c :: cs) = some ((), cs) := by
  rw [token, skipSpace_cons h]
  simp only [if_true]

/-- No other token is read there. -/
theorem token_cons_of_ne {c d : Char} (h : isSpace d = false) (hne : d ≠ c) (cs : List Char) :
    token c (d :: cs) = none := by
  rw [token, skipSpace_cons h]
  simp only [if_neg hne]

/-! ## Strings -/

/-- The digits of an escape are read as their values. -/
theorem hexValue?_digitChar {n : Nat} (hn : n < 16) : hexValue? (Nat.digitChar n) = some n := by
  have hall : ∀ m < 16, hexValue? (Nat.digitChar m) = some m := by decide
  exact hall n hn

/-- The four digits of a control character are read back. -/
theorem hex4_control {n : Nat} (hn : n < 0x20) (rest : List Char) :
    hex4 (Hex.ofNatPadded 4 n ++ rest) = some (n, rest) := by
  have hdigits : ∀ m < 0x20, Hex.ofNatPadded 4 m =
      [Nat.digitChar 0, Nat.digitChar 0, Nat.digitChar (m / 16), Nat.digitChar (m % 16)] := by
    decide
  rw [hdigits n hn, List.cons_append, List.cons_append, List.cons_append, List.singleton_append,
    hex4, hexValue?_digitChar (by omega), hexValue?_digitChar (by omega),
    hexValue?_digitChar (by omega)]
  have hvalue : ((0 * 16 + 0) * 16 + n / 16) * 16 + n % 16 = n := by omega
  exact congrArg (fun m => some (m, rest)) hvalue

variable (fuel : Nat)

/-- A one-letter escape is read as its character. -/
theorem stringBody_short {c e : Char} (hu : c ≠ 'u') (he : shortEscape? c = some e)
    (rest : List Char) :
    stringBody (fuel + 1) ('\\' :: c :: rest) =
      (stringBody fuel rest).map fun p => (e :: p.1, p.2) := by
  rw [stringBody.eq_def]
  dsimp only
  split
  · contradiction
  · next h => exact absurd (List.cons.inj h).1 (by decide)
  · next h => exact absurd (List.cons.inj (List.cons.inj h).2).1 hu
  · next h =>
      obtain ⟨rfl, rfl⟩ := List.cons.inj (List.cons.inj h).2
      rw [he]
      cases stringBody fuel rest <;> rfl
  · next _ hnot h =>
      obtain ⟨rfl, rfl⟩ := List.cons.inj h
      exact (hnot c rest rfl rfl).elim

/-- A control character is read back from its four digits. -/
theorem stringBody_control {n : Nat} (hn : n < 0x20) (rest : List Char) :
    stringBody (fuel + 1) ('\\' :: 'u' :: (Hex.ofNatPadded 4 n ++ rest)) =
      (stringBody fuel rest).map fun p => (Char.ofNat n :: p.1, p.2) := by
  rw [stringBody.eq_def]
  simp only
  rw [hex4_control hn, Option.bind_eq_bind, Option.bind_some, if_neg (by omega), if_neg (by omega)]
  cases stringBody fuel rest <;> rfl

/-- Any other character stands for itself. -/
theorem stringBody_plain {c : Char} (hquote : c ≠ '"') (hslash : c ≠ '\\') (hge : 0x20 ≤ c.toNat)
    (rest : List Char) :
    stringBody (fuel + 1) (c :: rest) = (stringBody fuel rest).map fun p => (c :: p.1, p.2) := by
  rw [stringBody.eq_def]
  dsimp only
  split
  · contradiction
  · next h => exact absurd (List.cons.inj h).1 hquote
  · next h => exact absurd (List.cons.inj h).1 hslash
  · next h => exact absurd (List.cons.inj h).1 hslash
  · next h =>
      obtain ⟨rfl, rfl⟩ := List.cons.inj h
      rw [if_neg (by simp only [hslash, or_false]; omega)]
      cases stringBody fuel rest <;> rfl

/-- One character of a string is read back. -/
theorem stringBody_escapeChar (c : Char) (rest : List Char) :
    stringBody (fuel + 1) (escapeChar c ++ rest) =
      (stringBody fuel rest).map fun p => (c :: p.1, p.2) := by
  rw [escapeChar]
  split
  · next h =>
      subst h
      exact stringBody_short fuel (by decide) (by decide) rest
  split
  · next h =>
      subst h
      exact stringBody_short fuel (by decide) (by decide) rest
  split
  · next h =>
      subst h
      exact stringBody_short fuel (by decide) (by decide) rest
  split
  · next h =>
      subst h
      exact stringBody_short fuel (by decide) (by decide) rest
  split
  · next h =>
      subst h
      exact stringBody_short fuel (by decide) (by decide) rest
  split
  · next h =>
      subst h
      exact stringBody_short fuel (by decide) (by decide) rest
  split
  · next h =>
      subst h
      exact stringBody_short fuel (by decide) (by decide) rest
  split
  · next h =>
      have hchar := stringBody_control fuel h rest
      rw [Char.ofNat_toNat] at hchar
      exact hchar
  · next hquote hslash _ _ _ _ _ hge => exact stringBody_plain fuel hquote hslash (by omega) rest

/-- Escaped characters are read back up to the quote. -/
theorem stringBody_flatMap {fuel : Nat} {cs : List Char} (hfuel : cs.length < fuel)
    (rest : List Char) :
    stringBody fuel (cs.flatMap escapeChar ++ '"' :: rest) = some (cs, rest) := by
  induction cs generalizing fuel with
  | nil =>
      obtain ⟨fuel, rfl⟩ := Nat.exists_eq_add_one_of_ne_zero (Nat.ne_zero_of_lt hfuel)
      rfl
  | cons c cs ih =>
      obtain ⟨fuel, rfl⟩ := Nat.exists_eq_add_one_of_ne_zero (Nat.ne_zero_of_lt hfuel)
      rw [List.flatMap_cons, List.append_assoc, stringBody_escapeChar,
        ih (Nat.lt_of_succ_lt_succ hfuel)]
      rfl

/-- Every character is written as one at least. -/
theorem length_le_escape (cs : List Char) : cs.length ≤ (cs.flatMap escapeChar).length := by
  have hpos : ∀ c, 1 ≤ (escapeChar c).length := by
    intro c
    unfold escapeChar
    repeat' split
    all_goals simp
  induction cs with
  | nil => exact Nat.le_refl 0
  | cons c cs ih =>
      rw [List.flatMap_cons, List.length_append, List.length_cons]
      have hc := hpos c
      omega

/-- A string is read back. -/
theorem string_stringChars (s : String) (rest : List Char) :
    string (stringChars s ++ rest) = some (s, rest) := by
  have hlength := length_le_escape s.toList
  rw [string, stringChars, List.cons_append, skipSpace_cons (by rfl)]
  simp only
  rw [List.append_assoc, List.singleton_append,
    stringBody_flatMap (by rw [List.length_append, List.length_cons]; omega)]
  simp only [Option.bind_eq_bind, Option.bind_some, String.ofList_toList, pure]

end Keyring.Json.Reader

namespace Keyring.Json

/-! ## Integers -/

/-- Nothing in a text continues a number. -/
def Ends (rest : List Char) : Prop :=
  ∀ c ∈ rest.head?, c.isDigit = false ∧ c ≠ '.' ∧ c ≠ 'e' ∧ c ≠ 'E'

/-- Numbers end where a text ends. -/
theorem ends_nil : Ends [] := by
  intro c hc
  contradiction

/-- Numbers end before a character that continues none. -/
theorem ends_cons {c : Char} (h : c.isDigit = false ∧ c ≠ '.' ∧ c ≠ 'e' ∧ c ≠ 'E')
    (rest : List Char) :
    Ends (c :: rest) := by
  intro d hd
  obtain rfl := Option.some.inj hd
  exact h

/-- A number fits 64 bits. -/
def FitsWord (n : Int) : Prop := -0x8000_0000_0000_0000 ≤ n ∧ n ≤ 0xffff_ffff_ffff_ffff

instance (n : Int) : Decidable (FitsWord n) := inferInstanceAs (Decidable (_ ∧ _))

namespace Numeral

variable {rest : List Char}

/-- The digits of a number are read as the number. -/
theorem natOfDigits_toDigits (n : Nat) : natOfDigits (Nat.toDigits 10 n) = n := by
  have hfold : ∀ (ds : List Char) (m : Nat),
      ds.foldl (fun n c => n * 10 + digitValue c) m = Nat.ofDigitChars 10 ds m := by
    intro ds
    induction ds with
    | nil => exact fun m => rfl
    | cons c ds ih =>
        intro m
        rw [List.foldl_cons, ih, Nat.ofDigitChars_cons, Nat.mul_comm]
        rfl
  rw [natOfDigits, hfold, Nat.ofDigitChars_toDigits (by decide) (by decide)]

/-- Digits are read up to where the number ends. -/
theorem digits_append {ds : List Char} (hds : ∀ c ∈ ds, c.isDigit) (hrest : Ends rest) :
    digits (ds ++ rest) = (ds, rest) := by
  induction ds with
  | nil =>
      cases rest with
      | nil => rfl
      | cons c rest =>
          have hc := (hrest c rfl).1
          rw [digits, List.nil_append, List.takeWhile_cons, List.dropWhile_cons, hc]
          rfl
  | cons c ds ih =>
      have hc := hds c List.mem_cons_self
      have hsplit := Prod.mk.inj (ih fun d hd => hds d (List.mem_cons_of_mem c hd))
      rw [digits, List.cons_append, List.takeWhile_cons, List.dropWhile_cons, hc, if_pos rfl,
        if_pos rfl, hsplit.1, hsplit.2]

/-- A number ends where nothing continues it. -/
theorem readTail_ends (negative : Bool) (whole : List Char) (hrest : Ends rest) :
    readTail negative whole rest = some (⟨negative, whole, [], none⟩, rest) := by
  cases rest with
  | nil => rfl
  | cons c rest =>
      obtain ⟨-, hpoint, he, hE⟩ := hrest c rfl
      rw [readTail.eq_def]
      split
      · next h => exact absurd (List.cons.inj h).1 hpoint
      · simp only [Option.bind_eq_bind, Option.bind_some]
        split
        · next h => exact absurd (List.cons.inj h).1 he
        · next h => exact absurd (List.cons.inj h).1 hE
        · rfl

/-- The digits of a number are read as an integer, up to where the number ends. -/
theorem readUnsigned_toDigits (negative : Bool) (n : Nat) (hrest : Ends rest) :
    readUnsigned negative (Nat.toDigits 10 n ++ rest) =
      some (⟨negative, Nat.toDigits 10 n, [], none⟩, rest) := by
  have hdigits := digits_append (fun c hc => isDigit_of_mem_toDigits (n := n) hc) hrest
  by_cases hn : n = 0
  · subst hn
    rw [readUnsigned, hdigits]
    exact readTail_ends negative ['0'] hrest
  · obtain ⟨c, ds, hds, hc⟩ := exists_toDigits_eq_cons hn
    rw [hds] at hdigits ⊢
    rw [readUnsigned, hdigits]
    split
    · next h => exact absurd (Prod.mk.inj h).1 (by simp)
    · next h => exact absurd (List.cons.inj (Prod.mk.inj h).1).1 hc
    · next h => exact absurd (List.cons.inj (Prod.mk.inj h).1).1 hc
    · next h =>
        obtain ⟨rfl, rfl⟩ := Prod.mk.inj h
        exact readTail_ends negative _ hrest

/-- An integer is read back from its text. -/
theorem read_toString (n : Int) (hrest : Ends rest) :
    read ((toString n).toList ++ rest) =
      some (⟨decide (n < 0), Nat.toDigits 10 n.natAbs, [], none⟩, rest) := by
  rw [toList_toString]
  split
  · next h =>
      have hsign : decide (n < 0) = false := decide_eq_false (by omega)
      rw [hsign, read.eq_def]
      split
      · next ds heq =>
          -- No digit is a sign.
          obtain ⟨c, cs, hcs⟩ :=
            List.exists_cons_of_ne_nil (Nat.toDigits_ne_nil (n := n.natAbs) (b := 10))
          rw [hcs] at heq
          have hdigit :=
            isDigit_of_mem_toDigits (n := n.natAbs) (c := c) (by rw [hcs]; exact List.mem_cons_self)
          rw [(List.cons.inj heq).1] at hdigit
          contradiction
      · exact readUnsigned_toDigits false _ hrest
  · next h =>
      have hsign : decide (n < 0) = true := decide_eq_true (by omega)
      rw [hsign, List.cons_append, read]
      exact readUnsigned_toDigits true _ hrest

/-- An integer that fits a word is taken as it is. -/
theorem toJson?_integer {n : Int} (hn : FitsWord n) :
    toJson? ⟨decide (n < 0), Nat.toDigits 10 n.natAbs, [], none⟩ = some (.int n) := by
  obtain ⟨hlow, hhigh⟩ := hn
  rw [toJson?, if_pos ⟨rfl, rfl⟩]
  simp only [natOfDigits_toDigits]
  by_cases hsign : n < 0
  · have hle : n.natAbs ≤ 0x8000_0000_0000_0000 := by omega
    rw [decide_eq_true hsign, if_neg (by simp), if_pos ⟨rfl, by omega, hle⟩]
    exact congrArg (fun m => some (Json.int m)) (by omega)
  · have hle : n.natAbs ≤ maxSignificand := by
      rw [maxSignificand]
      omega
    rw [decide_eq_false hsign, if_pos ⟨rfl, hle⟩]
    exact congrArg (fun m => some (Json.int m)) (by omega)

end Numeral

namespace Reader

/-- The first character of a number starts nothing else. -/
theorem ne_of_number {c d : Char} (hc : c.isDigit ∨ c = '-') (hdigit : d.isDigit = false)
    (hsign : d ≠ '-') : c ≠ d := by
  rintro rfl
  rcases hc with hc | hc
  · rw [hdigit] at hc
    contradiction
  · exact hsign hc

/-- The first character of a number is no space. -/
theorem isSpace_of_number {c : Char} (hc : c.isDigit ∨ c = '-') : isSpace c = false := by
  rw [isSpace, decide_eq_false (ne_of_number hc (d := ' ') rfl (by decide)),
    decide_eq_false (ne_of_number hc (d := '\t') rfl (by decide)),
    decide_eq_false (ne_of_number hc (d := '\n') rfl (by decide)),
    decide_eq_false (ne_of_number hc (d := '\r') rfl (by decide))]
  rfl

/-- The text of an integer starts with a digit or a sign. -/
theorem exists_toString_eq_cons (n : Int) :
    ∃ c cs, (toString n).toList = c :: cs ∧ (c.isDigit ∨ c = '-') := by
  rw [toList_toString]
  split
  · obtain ⟨c, cs, hcs⟩ :=
      List.exists_cons_of_ne_nil (Nat.toDigits_ne_nil (n := n.natAbs) (b := 10))
    exact ⟨c, cs, hcs,
      .inl (isDigit_of_mem_toDigits (n := n.natAbs) (by rw [hcs]; exact List.mem_cons_self))⟩
  · exact ⟨_, _, rfl, .inr rfl⟩

/-- What starts with a digit or a sign is read as a number. -/
theorem atom_number {c : Char} (hc : c.isDigit ∨ c = '-') (cs : List Char) :
    atom (c :: cs) = (do
      let (n, rest) ← Numeral.read (c :: cs)
      return (← n.toJson?, rest)) := by
  rw [atom, skipSpace_cons (isSpace_of_number hc)]
  split
  · next h => exact absurd (List.cons.inj h).1 (ne_of_number hc rfl (by decide))
  · next h => exact absurd (List.cons.inj h).1 (ne_of_number hc rfl (by decide))
  · next h => exact absurd (List.cons.inj h).1 (ne_of_number hc rfl (by decide))
  · rfl

end Reader

end Keyring.Json
