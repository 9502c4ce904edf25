import Keyring.Proofs.Config.Tree
import Keyring.Proofs.Toml.Numbers
import Keyring.Proofs.Config.Written.Strings

/-! # Reading documents that were written

A document of sections is read back line by line: a header opens its section, and each field adds
its value to the open one. The document can be read exactly if every value in it can.
-/

namespace Keyring.Toml

open Config (Tree)

/-! ## Values -/

variable {c : Char} {cs rest : List Char}

/-- What starts neither an array nor an inline table is a scalar. -/
theorem value_eq_scalar (hbracket : c ≠ '[') (hbrace : c ≠ '\x7b') (cs : List Char) :
    value (c :: cs) = scalar (c :: cs) := by
  rw [value, maxDepth, valueWithin]
  dsimp only
  split
  · next heq => exact absurd (List.cons.inj heq).1 hbracket
  · next heq => exact absurd (List.cons.inj heq).1 hbrace
  · rfl

/-- Every written text starts with a quote. -/
theorem textChars_cases (cs : List Char) :
    (∃ tail, textChars cs = '"' :: tail) ∨ ∃ tail, textChars cs = '\'' :: tail := by
  rw [textChars]
  cases form (traits cs) with
  | basic => exact .inl ⟨_, rfl⟩
  | literal => exact .inr ⟨_, rfl⟩
  | basicLines => exact .inl ⟨_, rfl⟩
  | literalLines => exact .inr ⟨_, rfl⟩

/-- A written text is read back up to the end of its line. -/
theorem scalar_textChars (cs rest : List Char) :
    scalar (textChars cs ++ '\n' :: rest) = some (.text (String.ofList cs), '\n' :: rest) := by
  have hread := string_textChars cs rest
  obtain ⟨tail, htail⟩ | ⟨tail, htail⟩ := textChars_cases cs
  · rw [htail] at hread ⊢
    exact congrArg (Option.map _) hread
  · rw [htail] at hread ⊢
    exact congrArg (Option.map _) hread

/-- Every number has a first digit. -/
theorem exists_digit_toDigits (n : Nat) : ∃ c ds, Nat.toDigits 10 n = c :: ds ∧ c.isDigit := by
  obtain hzero | ⟨c, ds, hds, -, hc, -⟩ := toDigits_cases n
  · exact ⟨'0', [], hzero, rfl⟩
  · exact ⟨c, ds, hds, hc⟩

/-- Digits are a scalar if they are an integer. -/
theorem scalar_toDigits (n : Nat) (rest : List Char) :
    scalar (Nat.toDigits 10 n ++ '\n' :: rest) =
      (int64? false n).map fun m => (.int m, '\n' :: rest) := by
  have hdate : dateTime (Nat.toDigits 10 n ++ '\n' :: rest) = none :=
    dateTime_digits (fun _ => isDigit_of_mem_toDigits) rest
  have hfloat := float_toDigits n rest
  have hinteger := integer_toDigits n rest
  obtain ⟨c, ds, hds, hc⟩ := exists_digit_toDigits n
  rw [hds] at hdate hfloat hinteger ⊢
  rw [scalar.eq_def]
  split
  · next heq => exact absurd (List.cons.inj heq).1 (ne_of_class hc rfl)
  · next heq => exact absurd (List.cons.inj heq).1 (ne_of_class hc rfl)
  · next heq => exact absurd (List.cons.inj heq).1 (ne_of_class hc rfl)
  · next heq => exact absurd (List.cons.inj heq).1 (ne_of_class hc rfl)
  · rw [hdate, hfloat, hinteger, Option.map_map]
    rfl

/-- There is nothing to skip before a character that is no blank. -/
theorem skipBlanks_cons (h : isBlank c = false) (cs : List Char) : skipBlanks (c :: cs) = c :: cs :=
  List.dropWhile_cons_of_neg (by simp [h])

/-- A value in its written form, and what it is read as at the end of a line, if it can be read. -/
structure Written where
  shown : String
  tree? : Option Tree
  starts : ∀ rest, skipBlanks (shown.toList ++ rest) = shown.toList ++ rest
  reads : ∀ rest, value (shown.toList ++ '\n' :: rest) = tree?.map fun t => (t, '\n' :: rest)

namespace Written

def text (s : String) : Written where
  shown := showText s
  tree? := some (.text s)
  starts rest := by
    rw [showText, String.toList_ofList]
    obtain ⟨tail, htail⟩ | ⟨tail, htail⟩ := textChars_cases s.toList
    · rw [htail, List.cons_append, skipBlanks_cons rfl]
    · rw [htail, List.cons_append, skipBlanks_cons rfl]
  reads rest := by
    have hscalar := scalar_textChars s.toList rest
    rw [String.ofList_toList] at hscalar
    rw [showText, String.toList_ofList, Option.map_some, ← hscalar]
    obtain ⟨tail, htail⟩ | ⟨tail, htail⟩ := textChars_cases s.toList
    · rw [htail]
      exact value_eq_scalar (by decide) (by decide) _
    · rw [htail]
      exact value_eq_scalar (by decide) (by decide) _

def nat (n : Nat) : Written where
  shown := toString n
  tree? := (int64? false n).map .int
  starts rest := by
    obtain ⟨c, ds, hds, hc⟩ := exists_digit_toDigits n
    rw [Nat.toString_eq_repr, Nat.toList_repr, hds, List.cons_append, skipBlanks_cons]
    rw [isBlank, Bool.or_eq_false_iff, decide_eq_false_iff_not, decide_eq_false_iff_not]
    exact ⟨ne_of_class hc rfl, ne_of_class hc rfl⟩
  reads rest := by
    have hscalar := scalar_toDigits n rest
    obtain ⟨c, ds, hds, hc⟩ := exists_digit_toDigits n
    rw [hds] at hscalar
    rw [Nat.toString_eq_repr, Nat.toList_repr, Option.map_map, hds, List.cons_append,
      value_eq_scalar (ne_of_class hc rfl) (ne_of_class hc rfl)]
    exact hscalar

def bool (b : Bool) : Written where
  shown := if b then "true" else "false"
  tree? := some (.bool b)
  starts rest := by cases b <;> rfl
  reads rest := by cases b <;> rfl

@[simp] theorem shown_text (s : String) : (text s).shown = showText s := rfl

@[simp] theorem shown_nat (n : Nat) : (nat n).shown = toString n := rfl

end Written

/-! ## Names -/

/-- Whether a name needs no quotes. -/
def isBareName (name : String) : Bool := !name.toList.isEmpty && name.toList.all isBare

/-- A bare name is a bare character and bare characters after it. -/
theorem exists_of_isBareName {name : String} (h : isBareName name) :
    ∃ c cs, name.toList = c :: cs ∧ isBare c ∧ ∀ d ∈ cs, isBare d := by
  rw [isBareName, Bool.and_eq_true, List.all_eq_true] at h
  cases hname : name.toList with
  | nil =>
      rw [hname] at h
      exact absurd h.1 (by decide)
  | cons c cs =>
      rw [hname] at h
      exact ⟨c, cs, rfl, List.forall_mem_cons.mp h.2⟩

/-- A bare character is no blank. -/
theorem skipBlanks_of_isBare (hc : isBare c) (cs : List Char) : skipBlanks (c :: cs) = c :: cs := by
  apply skipBlanks_cons
  rw [isBlank, Bool.or_eq_false_iff, decide_eq_false_iff_not, decide_eq_false_iff_not]
  exact ⟨ne_of_class hc rfl, ne_of_class hc rfl⟩

/-- A bare name is read up to the first other character. -/
theorem simpleKey_append {name : String} (h : isBareName name) {d : Char} (hd : isBare d = false)
    (rest : List Char) : simpleKey (name.toList ++ d :: rest) = some (name, d :: rest) := by
  have hall : ∀ c ∈ name.toList, isBare c := by
    rw [isBareName, Bool.and_eq_true, List.all_eq_true] at h
    exact h.2
  have hword : (name.toList ++ d :: rest).takeWhile isBare = name.toList := by
    rw [List.takeWhile_append_of_pos hall, List.takeWhile_cons_of_neg (by simp [hd]),
      List.append_nil]
  have hrest : (name.toList ++ d :: rest).dropWhile isBare = d :: rest := by
    rw [List.dropWhile_append_of_pos hall, List.dropWhile_cons_of_neg (by simp [hd])]
  obtain ⟨c, cs, hname, hc, -⟩ := exists_of_isBareName h
  rw [hname, List.cons_append] at hword hrest ⊢
  rw [simpleKey.eq_def]
  split
  · next heq => exact absurd (List.cons.inj heq).1 (ne_of_class hc rfl)
  · next heq => exact absurd (List.cons.inj heq).1 (ne_of_class hc rfl)
  · rw [hword, hrest]
    show some (String.ofList (c :: cs), d :: rest) = _
    rw [← hname, String.ofList_toList]

/-- A bare name that no point follows is a key by itself. -/
theorem key_append {name : String} (h : isBareName name) {d e : Char} {rest tail : List Char}
    (hd : isBare d = false) (hskip : skipBlanks (d :: rest) = e :: tail) (hpoint : e ≠ '.') :
    key (name.toList ++ d :: rest) = some ([name], e :: tail) := by
  have htail : keyTail (d :: rest).length (d :: rest) = some ([], d :: rest) := by
    rw [List.length_cons, keyTail, hskip]
    split
    · next heq => exact absurd (List.cons.inj heq).1 hpoint
    · rfl
  obtain ⟨c, cs, hname, hc, -⟩ := exists_of_isBareName h
  have hstart : skipBlanks (name.toList ++ d :: rest) = name.toList ++ d :: rest := by
    rw [hname]
    exact skipBlanks_of_isBare hc _
  rw [key, hstart, simpleKey_append h hd]
  simp only [Option.bind_eq_bind, Option.bind_some, htail, hskip]
  rfl

/-! ## One line -/

variable {s : State} {name sec : String} {t : Tree} {n : Node} {es done fs : Entries}

theorem endLine_feed (rest : List Char) : endLine ('\n' :: rest) = some ((), rest) := rfl

/-- An empty line changes nothing. -/
theorem line_feed (s : State) (rest : List Char) : line s ('\n' :: rest) = some (s, rest) := rfl

/-- A header opens its section, unless it was opened before. -/
theorem line_headerLine (hname : isBareName name) (s : State) (rest : List Char) :
    line s ((headerLine name).toList ++ rest) =
      (s.declareAt declare [name]).map fun s => (s, rest) := by
  have htext : (headerLine name).toList ++ rest = '[' :: (name.toList ++ ']' :: '\n' :: rest) := by
    simp [headerLine]
  have hheader : header (name.toList ++ ']' :: '\n' :: rest) = some ([name], '\n' :: rest) := by
    rw [header, key_append hname rfl rfl (by decide)]
    rfl
  obtain ⟨c, cs, hcons, hc, -⟩ := exists_of_isBareName hname
  have hstart : skipBlanks ('[' :: (name.toList ++ ']' :: '\n' :: rest)) =
      '[' :: (name.toList ++ ']' :: '\n' :: rest) :=
    rfl
  rw [htext, line, hstart]
  split
  · contradiction
  · next heq =>
      rw [hcons] at heq
      exact absurd (List.cons.inj (List.cons.inj heq).2).1 (ne_of_class hc rfl)
  · next heq =>
      rw [← (List.cons.inj heq).2, hheader]
      cases hdeclare : s.declareAt declare [name] with
      | none => simp [hdeclare]
      | some s' => simp [hdeclare, endLine_feed]
  · next hno heq => exact (hno (List.cons.inj heq).1.symm).elim

/-- What starts with a bare character is a pair. -/
theorem line_of_class (hc : isBare c) (s : State) (cs : List Char) :
    line s (c :: cs) = (do
      let ((path, v), rest) ← pair value (c :: cs)
      let s ← s.assign path v
      let ((), rest) ← endLine rest
      return (s, rest)) := by
  rw [line, skipBlanks_of_isBare hc]
  split
  · contradiction
  · next heq => exact absurd (List.cons.inj heq).1 (ne_of_class hc rfl)
  · next heq => exact absurd (List.cons.inj heq).1 (ne_of_class hc rfl)
  · next heq =>
      obtain ⟨rfl, rfl⟩ := List.cons.inj heq
      have hend : lineEnd? (c :: cs) = none :=
        lineEnd?_cons (ne_of_class hc rfl) (ne_of_class hc rfl) cs
      have hcomment : c ≠ '#' := ne_of_class hc rfl
      rw [if_neg (by simp [hend, hcomment])]

/-- A field adds its value to the open section, if the value can be read. -/
theorem line_fieldLine (hname : isBareName name) (w : Written) (s : State) (rest : List Char) :
    line s ((fieldLine name w.shown).toList ++ rest) =
      (w.tree?.bind (s.assign [name])).map fun s => (s, rest) := by
  have htext : (fieldLine name w.shown).toList ++ rest =
      name.toList ++ ' ' :: '=' :: ' ' :: (w.shown.toList ++ '\n' :: rest) := by
    simp [fieldLine]
  have hpair : pair value (name.toList ++ ' ' :: '=' :: ' ' :: (w.shown.toList ++ '\n' :: rest)) =
      w.tree?.map fun t => (([name], t), '\n' :: rest) := by
    have hblank :
        skipBlanks (' ' :: (w.shown.toList ++ '\n' :: rest)) = w.shown.toList ++ '\n' :: rest :=
      w.starts _
    rw [pair, key_append hname rfl rfl (by decide)]
    simp only [Option.bind_eq_bind, Option.bind_some, literally, if_true, hblank, w.reads]
    cases w.tree? <;> rfl
  obtain ⟨c, cs, hcons, hc, -⟩ := exists_of_isBareName hname
  rw [hcons, List.cons_append] at hpair
  rw [htext, hcons, List.cons_append, line_of_class hc, hpair]
  cases w.tree? with
  | none => rfl
  | some t =>
      simp only [Option.map_some, Option.bind_eq_bind, Option.bind_some, endLine_feed]
      cases s.assign [name] t <;> rfl

/-! ## Entries -/

/-- A name is missing from entries if neither the first nor a later one bears it. -/
theorem find?_cons_eq_none_iff {e : String × Node} :
    find? name (e :: es) = none ↔ e.1 ≠ name ∧ find? name es = none := by
  simp [find?]

/-- A name is missing from entries if neither the last nor an earlier one bears it. -/
theorem find?_concat_eq_none_iff :
    find? name (es ++ [(sec, n)]) = none ↔ find? name es = none ∧ sec ≠ name := by
  simp [find?]

/-- An entry that is added under a fresh name is found. -/
theorem find?_concat (h : find? name es = none) : find? name (es ++ [(name, n)]) = some n := by
  rw [find?, Option.map_eq_none_iff] at h
  rw [find?, List.find?_append, h, Option.none_or, List.find?_cons_of_pos (by simp)]
  rfl

/-- An entry of a fresh name goes to the end. -/
theorem replace_eq_concat (h : find? name es = none) : replace name n es = es ++ [(name, n)] := by
  induction es with
  | nil => rfl
  | cons e es ih =>
      obtain ⟨hne, hrest⟩ := find?_cons_eq_none_iff.mp h
      rw [replace, if_neg hne, ih hrest]
      rfl

/-- The last entry is replaced where it stands. -/
theorem replace_concat {m : Node} (h : find? name es = none) :
    replace name n (es ++ [(name, m)]) = es ++ [(name, n)] := by
  induction es with
  | nil => exact if_pos rfl
  | cons e es ih =>
      obtain ⟨hne, hrest⟩ := find?_cons_eq_none_iff.mp h
      rw [List.cons_append, replace, if_neg hne, ih hrest]
      rfl

/-- A header opens a new section. -/
theorem declareAt_declare (h : find? sec s.entries = none) :
    s.declareAt declare [sec] = some ⟨[sec], s.entries ++ [(sec, .table .declared [])]⟩ := by
  show (do return ⟨[sec], ← declare sec .declared s.entries⟩ : Option State) = _
  rw [declare, h, replace_eq_concat h]
  rfl

/-- A field is added to the open section. -/
theorem assign_open (hsec : find? sec done = none) (hname : find? name fs = none) (t : Tree) :
    State.assign ⟨[sec], done ++ [(sec, .table .declared fs)]⟩ [name] t =
      some ⟨[sec], done ++ [(sec, .table .declared (fs ++ [(name, .value t)]))]⟩ := by
  have hassign : assignPath [name] t .declared fs = some (fs ++ [(name, .value t)]) := by
    show assign false name t .declared fs = _
    rw [assign, if_neg (by decide), hname, replace_eq_concat hname]
  have henter :
      enter false (assignPath [name] t) [sec] .declared (done ++ [(sec, .table .declared fs)]) =
      some (done ++ [(sec, .table .declared (fs ++ [(name, .value t)]))]) := by
    rw [enter, find?_concat hsec]
    simp only [Bool.false_and, Bool.false_eq_true, if_false, enter, hassign, Option.bind_eq_bind,
      Option.bind_some, replace_concat hsec]
    rfl
  rw [State.assign, henter]
  rfl

/-! ## Many lines -/

/-- Reading a text takes a document from one state to the next, or fails, whatever follows the
text. -/
def Leads (s : State) (text : List Char) (o : Option State) : Prop :=
  ∀ fuel rest, text.length + rest.length < fuel →
    ∃ fuel', rest.length < fuel' ∧ lines fuel s (text ++ rest) = o.bind fun s' =>
      lines fuel' s' rest

namespace Leads

variable {a b : List Char} {o : Option State}

/-- Reading no text leaves a document as it is. -/
theorem nil (s : State) : Leads s [] (some s) := by
  intro fuel rest hfuel
  rw [List.length_nil, Nat.zero_add] at hfuel
  exact ⟨fuel, hfuel, rfl⟩

/-- Two stretches of lines are read one after the other. -/
theorem append {s' : State} (ha : Leads s a (some s')) (hb : Leads s' b o) :
    Leads s (a ++ b) o := by
  intro fuel rest hfuel
  rw [List.length_append, Nat.add_assoc] at hfuel
  obtain ⟨fuel₁, hfuel₁, hlines⟩ := ha fuel (b ++ rest) (by rwa [List.length_append])
  rw [List.append_assoc, hlines]
  exact hb fuel₁ rest (by rwa [List.length_append] at hfuel₁)

/-- Nothing is read after a failure. -/
theorem fail (ha : Leads s a none) (b : List Char) : Leads s (a ++ b) none := by
  intro fuel rest hfuel
  rw [List.length_append, Nat.add_assoc] at hfuel
  obtain ⟨fuel₁, -, hlines⟩ := ha fuel (b ++ rest) (by rwa [List.length_append])
  rw [List.append_assoc]
  exact ⟨rest.length + 1, Nat.lt_succ_self _, hlines⟩

/-- One line that is read as a whole leads to what it is read as. -/
theorem line (hne : a ≠ []) (h : ∀ rest, line s (a ++ rest) = o.map fun s' => (s', rest)) :
    Leads s a o := by
  intro fuel rest hfuel
  obtain ⟨fuel, rfl⟩ := Nat.exists_eq_add_one_of_ne_zero (Nat.ne_zero_of_lt hfuel)
  obtain ⟨c, cs, rfl⟩ := List.exists_cons_of_ne_nil hne
  refine ⟨fuel, by rw [List.length_cons] at hfuel; omega, ?_⟩
  have hline := h rest
  rw [List.cons_append] at hline
  rw [List.cons_append, lines, hline]
  · cases o <;> rfl
  · exact List.cons_ne_nil _ _

end Leads

/-! ## Documents -/

/-- Fields with their written values. -/
abbrev Fields := List (String × Written)

def fieldsText : Fields → String
  | [] => ""
  | (name, w) :: rest => fieldLine name w.shown ++ fieldsText rest

/-- Sections, with a blank line between two. -/
def documentText : List (String × Fields) → String
  | [] => ""
  | (name, fields) :: rest =>
    headerLine name ++ fieldsText fields ++ (if rest.isEmpty then "" else "\n") ++ documentText rest

/-- The entries that named items are read as, if each of them can be read. -/
def entries? {α : Type} (read : α → Option Node) : List (String × α) → Option Entries
  | [] => some []
  | (name, a) :: rest => (read a).bind fun n => (entries? read rest).map ((name, n) :: ·)

def fieldNode? (w : Written) : Option Node := w.tree?.map .value

def sectionNode? (fields : Fields) : Option Node :=
  (entries? fieldNode? fields).map (.table .declared)

/-- The names differ and need no quotes. -/
def WellNamed {α : Type} (items : List (String × α)) : Prop :=
  (items.map (·.1)).Nodup ∧ ∀ p ∈ items, isBareName p.1

/-- The first name of well-named items is bare and differs from the others, which are well named. -/
theorem WellNamed.of_cons {α : Type} {name : String} {a : α} {items : List (String × α)}
    (h : WellNamed ((name, a) :: items)) :
    (∀ p ∈ items, name ≠ p.1) ∧ isBareName name ∧ WellNamed items := by
  obtain ⟨hnodup, hbare⟩ := h
  obtain ⟨hfresh, hnodup⟩ := List.nodup_cons.mp hnodup
  obtain ⟨hname, hbare⟩ := List.forall_mem_cons.mp hbare
  exact ⟨fun p hp heq => hfresh (List.mem_map.mpr ⟨p, hp, heq.symm⟩), hname, hnodup, hbare⟩

variable {fields : Fields} {sections : List (String × Fields)}

/-- Fields are added to the open section one by one. -/
theorem leads_fieldsText (hfields : WellNamed fields) (hsec : find? sec done = none)
    (hfresh : ∀ p ∈ fields, find? p.1 fs = none) :
    Leads ⟨[sec], done ++ [(sec, .table .declared fs)]⟩ (fieldsText fields).toList
      ((entries? fieldNode? fields).map fun es => ⟨[sec],
        done ++ [(sec, .table .declared (fs ++ es))]⟩) := by
  induction fields generalizing fs with
  | nil =>
      rw [entries?, Option.map_some, List.append_nil]
      exact .nil _
  | cons p rest ih =>
      obtain ⟨name, w⟩ := p
      obtain ⟨hother, hname, hrest⟩ := hfields.of_cons
      obtain ⟨hnew, hfresh⟩ := List.forall_mem_cons.mp hfresh
      have hline :
          Leads ⟨[sec], done ++ [(sec, .table .declared fs)]⟩ (fieldLine name w.shown).toList
          (w.tree?.bind (State.assign ⟨[sec], done ++ [(sec, .table .declared fs)]⟩ [name])) :=
        .line (by simp [fieldLine]) (line_fieldLine hname w _)
      rw [fieldsText, String.toList_append, entries?, fieldNode?]
      cases htree : w.tree? with
      | none =>
          rw [htree] at hline
          exact hline.fail _
      | some t =>
          rw [htree, Option.bind_some, assign_open hsec hnew] at hline
          have hnames : ∀ p ∈ rest, find? p.1 (fs ++ [(name, .value t)]) = none :=
            fun p hp => find?_concat_eq_none_iff.mpr ⟨hfresh p hp, hother p hp⟩
          have hlines := hline.append (ih hrest hnames)
          simpa [Function.comp_def] using hlines

/-- A section is added to the document. -/
theorem leads_section (hname : isBareName name) (hfields : WellNamed fields)
    (hnew : find? name s.entries = none) :
    Leads s (headerLine name ++ fieldsText fields).toList
      ((entries? fieldNode? fields).map fun es => ⟨[name],
        s.entries ++ [(name, .table .declared es)]⟩) := by
  have hheader :
      Leads s (headerLine name).toList
        (some ⟨[name], s.entries ++ [(name, .table .declared [])]⟩) := by
    refine .line (by simp [headerLine]) fun rest => ?_
    rw [line_headerLine hname, declareAt_declare hnew]
  rw [String.toList_append]
  exact hheader.append (leads_fieldsText hfields hnew fun _ _ => rfl)

/-- Reading a document adds its sections in order, and fails exactly if a value in it cannot be
read. -/
theorem leads_documentText (hsections : WellNamed sections)
    (hfields : ∀ p ∈ sections, WellNamed p.2)
    (hfresh : ∀ p ∈ sections, find? p.1 s.entries = none) :
    ∃ o, Leads s (documentText sections).toList o ∧
      o.map State.entries = (entries? sectionNode? sections).map (s.entries ++ ·) := by
  induction sections generalizing s with
  | nil => exact ⟨some s, .nil s, by simp [entries?]⟩
  | cons p rest ih =>
      obtain ⟨name, fields⟩ := p
      obtain ⟨hother, hname, hrest⟩ := hsections.of_cons
      obtain ⟨hnew, hfresh⟩ := List.forall_mem_cons.mp hfresh
      obtain ⟨hown, hfields⟩ := List.forall_mem_cons.mp hfields
      have hblank (s' : State) : Leads s' (if rest.isEmpty then "" else "\n").toList (some s') := by
        split
        · exact .nil s'
        · exact .line (by decide) (line_feed s')
      have hsection := leads_section hname hown hnew
      rw [documentText, String.toList_append, String.toList_append, entries?, sectionNode?]
      cases hentries : entries? fieldNode? fields with
      | none =>
          rw [hentries] at hsection
          exact ⟨none, (hsection.fail _).fail _, rfl⟩
      | some es =>
          rw [hentries] at hsection
          obtain ⟨o, hlines, ho⟩ :=
            ih (s := ⟨[name], s.entries ++ [(name, .table .declared es)]⟩) hrest hfields
            fun p hp => find?_concat_eq_none_iff.mpr ⟨hfresh p hp, hother p hp⟩
          refine ⟨o, (hsection.append (hblank _)).append hlines, ?_⟩
          simpa [Function.comp_def] using ho

/-- A document is read as the table of its sections, if each of their fields can be read. -/
theorem parse?_documentText (hsections : WellNamed sections)
    (hfields : ∀ p ∈ sections, WellNamed p.2) :
    parse? (documentText sections) =
      (entries? sectionNode? sections).map fun es => .table (entriesTree [] es) := by
  have hmark : skipMark (documentText sections).toList = (documentText sections).toList := by
    cases sections with
    | nil => rfl
    | cons p rest => simp [documentText, headerLine, skipMark]
  obtain ⟨o, hleads, ho⟩ := leads_documentText (s := ⟨[], []⟩) hsections hfields fun _ _ => rfl
  obtain ⟨fuel, hfuel, hlines⟩ :=
    hleads ((documentText sections).toList.length + 1) [] (Nat.lt_succ_self _)
  obtain ⟨fuel, rfl⟩ := Nat.exists_eq_add_one_of_ne_zero (Nat.ne_zero_of_lt hfuel)
  have hend : lines ((documentText sections).toList.length + 1) ⟨[], []⟩
      (documentText sections).toList = o := by
    rw [List.append_nil] at hlines
    exact hlines.trans (by cases o <;> rfl)
  simp only [List.nil_append, Option.map_id_fun', id] at ho
  rw [parse?, hmark, ← ho]
  simp only [hend]
  cases o <;> rfl

/-! ## Finding what was read -/

/-- The tree of entries has under a name what the entries have there. -/
theorem lookup_entriesTree {table : List (String × Tree)} (h : (es.map (·.1)).Nodup)
    (name : String) :
    Tree.lookup name (entriesTree table es) =
      ((find? name es).map Node.tree <|> Tree.lookup name table) := by
  induction es generalizing table with
  | nil => rfl
  | cons e rest ih =>
      obtain ⟨k, n⟩ := e
      obtain ⟨hfresh, hnodup⟩ := List.nodup_cons.mp h
      rw [entriesTree, ih hnodup, Tree.lookup_insert]
      by_cases hk : k = name
      · have hnone : find? name rest = none := by
          rw [find?, Option.map_eq_none_iff, List.find?_eq_none]
          intro e he heq
          exact hfresh (List.mem_map.mpr ⟨e, he, by rw [hk]; simpa using heq⟩)
        rw [hnone, if_pos hk]
        simp [find?, hk]
      · rw [if_neg hk]
        simp [find?, hk]

section Entries

variable {α : Type} {read : α → Option Node} {items : List (String × α)}

/-- Items can be read exactly if each of them can. -/
theorem isSome_entries? : (entries? read items).isSome ↔ ∀ p ∈ items, (read p.2).isSome := by
  induction items with
  | nil => simp [entries?]
  | cons p rest ih =>
      rw [List.forall_mem_cons, ← ih, entries?]
      cases read p.2 <;> simp

/-- Reading items keeps their names. -/
theorem map_fst_entries? (hread : entries? read items = some es) :
    es.map (·.1) = items.map (·.1) := by
  induction items generalizing es with
  | nil =>
      obtain rfl := Option.some.inj hread
      rfl
  | cons p rest ih =>
      obtain ⟨n, -, hread⟩ := Option.bind_eq_some_iff.mp hread
      obtain ⟨es, hes, rfl⟩ := Option.map_eq_some_iff.mp hread
      rw [List.map_cons, List.map_cons, ih hes]

/-- What an item is read as is found under its name. -/
theorem find?_entries? (hread : entries? read items = some es) (name : String) :
    find? name es = (items.find? (·.1 = name)).bind (read ·.2) := by
  induction items generalizing es with
  | nil =>
      obtain rfl := Option.some.inj hread
      rfl
  | cons p rest ih =>
      obtain ⟨k, a⟩ := p
      obtain ⟨n, hn, hread⟩ := Option.bind_eq_some_iff.mp hread
      obtain ⟨es, hes, rfl⟩ := Option.map_eq_some_iff.mp hread
      by_cases hk : k = name
      · simp [find?, hk, hn]
      · have hrest := ih hes
        rw [find?] at hrest ⊢
        rw [List.find?_cons_of_neg (by simp [hk]), List.find?_cons_of_neg (by simp [hk]), hrest]

/-- What is read under a name is the item of that name. -/
theorem lookup_entries? (hitems : WellNamed items) (hread : entries? read items = some es)
    (name : String) :
    Tree.lookup name (entriesTree [] es) =
      (items.find? (·.1 = name)).bind fun p => (read p.2).map Node.tree := by
  have hnodup : (es.map (·.1)).Nodup := map_fst_entries? hread ▸ hitems.1
  rw [lookup_entriesTree hnodup, find?_entries? hread]
  cases items.find? (·.1 = name) with
  | none => rfl
  | some p => cases hp : read p.2 <;> simp [hp, Tree.lookup]

end Entries

end Keyring.Toml
