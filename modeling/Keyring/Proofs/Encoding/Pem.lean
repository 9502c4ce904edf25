import Keyring.Encoding.Pem
import Keyring.Proofs.Text.Base64.Canonical

/-! # Reading documents in PEM

A document may be written with line ends of any kind, and with another kind after each line. The
reader undoes each step of the writing: the opening line, the line ends, the closing line, the
breaks every 64 columns, and the base64 of the body. So it reads every spelling of a document, that
of the writer with line feeds among them.
-/

namespace Keyring.Pem

open scoped List

/-! ## Spellings -/

/-- A line feed, a carriage return, or both. -/
inductive IsLineEnd : Bytes → Prop
  | lf : IsLineEnd [lf]
  | cr : IsLineEnd [cr]
  | crlf : IsLineEnd [cr, lf]

/-- A body is broken into lines of full width but the last. -/
inductive Wrapped : (body text : Bytes) → Prop
  | last {line : Bytes} (hline : line.length ≤ width) : Wrapped line line
  | line {line rest text e : Bytes} (hline : line.length = width) (he : IsLineEnd e)
      (hrest : rest ≠ []) (h : Wrapped rest text) : Wrapped (line ++ rest) (line ++ (e ++ text))

/-- A text is a document in PEM. A carriage return after the opening line is not to be taken
together with the line feed after an empty body. -/
inductive Spelled (label : String) (document : Bytes) : (text : Bytes) → Prop
  | intro {body e₁ e₂ e₃ : Bytes} (hbody : Wrapped (Base64.encodeBytes .standard document) body)
      (h₁ : IsLineEnd e₁) (h₂ : IsLineEnd e₂) (h₃ : e₃ = [] ∨ IsLineEnd e₃)
        (hcr : e₁ = [cr] → document ≠ []) :
      Spelled label document
        (openingLine label ++ (e₁ ++ (body ++ (e₂ ++ (closingLine label ++ e₃)))))

variable {label : String} {document body text bs rest e : Bytes} {b : UInt8} {fuel : Nat}

/-- A line ends with a feed, a return or both. -/
theorem IsLineEnd.mem (h : IsLineEnd e) (hb : b ∈ e) : b = Pem.lf ∨ b = Pem.cr := by
  cases h with
  | lf => exact .inl (List.mem_singleton.mp hb)
  | cr => exact .inr (List.mem_singleton.mp hb)
  | crlf =>
      rcases List.mem_cons.mp hb with hb | hb
      · exact .inr hb
      · exact .inl (List.mem_singleton.mp hb)

/-- Breaks add nothing but line ends. -/
theorem Wrapped.mem (h : Wrapped body text) (hb : b ∈ text) : b ∈ body ∨ b = lf ∨ b = cr := by
  induction h with
  | last => exact .inl hb
  | line hline he hrest h ih =>
      rw [List.mem_append, List.mem_append] at hb
      rcases hb with hb | hb | hb
      · exact .inl (List.mem_append_left _ hb)
      · exact .inr (he.mem hb)
      · exact (ih hb).imp_left (List.mem_append_right _)

/-- A text begins as its body does, and ends so. -/
theorem Wrapped.head?_eq (h : Wrapped body text) : text.head? = body.head? := by
  cases h with
  | last => rfl
  | line hline =>
      obtain ⟨b, tail, rfl⟩ := List.exists_cons_of_ne_nil (List.ne_nil_of_length_eq_add_one hline)
      rw [List.cons_append, List.cons_append, List.head?_cons, List.head?_cons]

/-- Wrapping a text keeps its last byte. -/
theorem Wrapped.getLast?_eq (h : Wrapped body text) : text.getLast? = body.getLast? := by
  induction h with
  | last => rfl
  | @line line rest text e hline he hrest h ih =>
      obtain ⟨b, hb⟩ := Option.ne_none_iff_exists'.mp (mt List.getLast?_eq_none_iff.mp hrest)
      simp only [List.getLast?_append, ih, hb, Option.some_or]

/-- The writer breaks lines with line feeds. The fuel is that of the writer. -/
theorem wrapped_wrap (h : bs.length ≤ fuel) : Wrapped bs (wrap fuel bs) := by
  have hwidth : width = 64 := rfl
  induction fuel generalizing bs with
  | zero => exact .last (by omega)
  | succ fuel ih =>
      rw [wrap]
      split
      · next hle => exact .last hle
      · next hlt =>
          have hwrapped : Wrapped (bs.drop width) (wrap fuel (bs.drop width)) := ih (by
            rw [List.length_drop]
            omega)
          have hline : (bs.take width).length = width := by
            rw [List.length_take]
            omega
          have hrest : bs.drop width ≠ [] := List.ne_nil_of_length_pos (by
            rw [List.length_drop]
            omega)
          have hall := Wrapped.line hline .lf hrest hwrapped
          rwa [List.take_append_drop] at hall

/-- The writer's own spelling. -/
theorem spelled_encode (label : String) (document : Bytes) :
    Spelled label document (encode label document) := by
  have h : encode label document =
      openingLine label ++ ([lf] ++ (wrap (Base64.encodeBytes .standard document).length
      (Base64.encodeBytes .standard document) ++ ([lf] ++ (closingLine label ++ [lf])))) := rfl
  rw [h]
  exact .intro (wrapped_wrap (Nat.le_refl _)) .lf .lf (.inr .lf) (fun h => by contradiction)

/-! ## Prefixes, suffixes and line ends -/

/-- What is left is what follows the prefix. -/
theorem dropPrefix?_eq_some_iff {start : Bytes} :
    dropPrefix? start bs = some rest ↔ bs = start ++ rest := by
  induction start generalizing bs with
  | nil => exact Option.some_inj
  | cons a start ih =>
      cases bs with
      | nil => simp [dropPrefix?]
      | cons b bs =>
          rw [dropPrefix?, List.cons_append, List.cons.injEq]
          by_cases h : a = b
          · rw [if_pos h, ih, and_iff_right h.symm]
          · rw [if_neg h]
            exact iff_of_false (by simp) fun hb => h hb.1.symm

/-- What is left is what stands before the suffix. -/
theorem dropSuffix?_eq_some_iff {finish : Bytes} :
    dropSuffix? finish bs = some rest ↔ bs = rest ++ finish := by
  rw [dropSuffix?, Option.map_eq_some_iff]
  simp only [dropPrefix?_eq_some_iff]
  constructor
  · rintro ⟨front, h, rfl⟩
    rw [← List.reverse_reverse bs, h, List.reverse_append, List.reverse_reverse]
  · rintro rfl
    exact ⟨rest.reverse, List.reverse_append, List.reverse_reverse rest⟩

/-- A line end is passed over, unless a line feed follows a carriage return that stands alone. -/
theorem lineEnd?_append (he : IsLineEnd e) (hbs : e = [cr] → bs.head? ≠ some lf) :
    lineEnd? (e ++ bs) = some bs := by
  have hne : lf ≠ cr := by decide
  cases he with
  | lf => simp [lineEnd?, hne]
  | crlf => simp [lineEnd?]
  | cr =>
      cases bs with
      | nil => simp [lineEnd?]
      | cons b bs =>
          have hb : b ≠ lf := fun h => hbs rfl (by rw [h, List.head?_cons])
          simp [lineEnd?, hb]

/-- A line end at the end is dropped, unless a carriage return stands before a line feed. -/
theorem dropLineEnd?_append (he : IsLineEnd e) (hbs : bs.getLast? ≠ some cr) :
    dropLineEnd? (bs ++ e) = some bs := by
  have hne : cr ≠ lf := by decide
  cases he with
  | crlf => simp [dropLineEnd?]
  | cr => simp [dropLineEnd?, hne]
  | lf =>
      rw [dropLineEnd?, List.reverse_append, List.reverse_singleton, List.singleton_append]
      simp only [if_true]
      cases hrev : bs.reverse with
      | nil => rw [List.reverse_eq_nil_iff.mp hrev]
      | cons c rest =>
          have hc : c ≠ cr := by
            rintro rfl
            apply hbs
            rw [← List.head?_reverse, hrev, List.head?_cons]
          simp only [if_neg hc]
          rw [← hrev, List.reverse_reverse]

/-- Nothing is dropped if there is no line end at the end. -/
theorem dropLineEnd?_eq_none (hlf : bs.getLast? ≠ some lf) (hcr : bs.getLast? ≠ some cr) :
    dropLineEnd? bs = none := by
  rw [← List.head?_reverse] at hlf hcr
  rw [dropLineEnd?]
  cases hrev : bs.reverse with
  | nil => rfl
  | cons c rest =>
      rw [hrev, List.head?_cons, ne_eq, Option.some_inj] at hlf hcr
      simp only [if_neg hlf, if_neg hcr]

/-- What was passed over is a line end. -/
theorem lineEnd?_eq_some (h : lineEnd? bs = some rest) : ∃ e, IsLineEnd e ∧ bs = e ++ rest := by
  cases bs with
  | nil => contradiction
  | cons b tail =>
      unfold lineEnd? at h
      dsimp only at h
      split at h
      · next hb =>
          subst hb
          cases tail with
          | nil =>
              obtain rfl := Option.some.inj h
              exact ⟨_, .cr, rfl⟩
          | cons c tail =>
              dsimp only at h
              split at h
              · next hc =>
                  obtain rfl := Option.some.inj h
                  exact ⟨_, .crlf, by rw [hc]; rfl⟩
              · obtain rfl := Option.some.inj h
                exact ⟨_, .cr, rfl⟩
      · split at h
        · next hb =>
            obtain rfl := Option.some.inj h
            exact ⟨_, .lf, by rw [hb]; rfl⟩
        · contradiction

/-- What was dropped is a line end. -/
theorem dropLineEnd?_eq_some (h : dropLineEnd? bs = some rest) :
    ∃ e, IsLineEnd e ∧ bs = rest ++ e := by
  rw [dropLineEnd?] at h
  cases hrev : bs.reverse with
  | nil =>
      rw [hrev] at h
      contradiction
  | cons b tail =>
      rw [hrev] at h
      obtain rfl := List.reverse_eq_iff.mp hrev
      dsimp only at h
      split at h
      · next hb =>
          subst hb
          cases tail with
          | nil =>
              obtain rfl := Option.some.inj h
              exact ⟨_, .lf, rfl⟩
          | cons c tail =>
              dsimp only at h
              split at h
              · next hc =>
                  obtain rfl := Option.some.inj h
                  exact ⟨_, .crlf, by simp [hc]⟩
              · obtain rfl := Option.some.inj h
                exact ⟨_, .lf, by simp⟩
      · split at h
        · next hb =>
            obtain rfl := Option.some.inj h
            exact ⟨_, .cr, by simp [hb]⟩
        · contradiction

/-! ## Reading -/

/-- Lines of full width are joined again. The fuel is that of the reader. -/
theorem Wrapped.unwrap_eq (h : Wrapped body text) (hbody : lf ∉ body) (hfuel : text.length < fuel) :
    unwrap fuel text = some body := by
  induction h generalizing fuel with
  | @last line hline =>
      obtain ⟨n, rfl⟩ := Nat.exists_eq_add_one_of_ne_zero (Nat.ne_zero_of_lt hfuel)
      rw [unwrap, if_pos hline]
  | @line line rest text e hline he hrest h ih =>
      obtain ⟨n, rfl⟩ := Nat.exists_eq_add_one_of_ne_zero (Nat.ne_zero_of_lt hfuel)
      have hlf : lf ∉ rest := fun hmem => hbody (List.mem_append_right _ hmem)
      have hpos : 0 < e.length := by cases he <;> decide
      have hend : lineEnd? (e ++ text) = some text := by
        refine lineEnd?_append he fun _ hhead => hlf ?_
        rw [h.head?_eq] at hhead
        exact List.mem_of_head? hhead
      rw [List.length_append, List.length_append] at hfuel
      have hwidth : ¬ (line ++ (e ++ text)).length ≤ width := by
        rw [List.length_append, List.length_append, hline]
        omega
      rw [unwrap, if_neg hwidth, List.drop_left' hline, List.take_left' hline, hend,
        Option.bind_eq_bind, Option.bind_some, ih hlf (by omega)]
      rfl

/-- What starts with an opening line starts the document. -/
theorem start?_openingLine (label : String) (bs : Bytes) :
    start? (openingLine label ++ bs) = some (openingLine label ++ bs) := by
  have hmark : openingLine label = openingMark ++ ascii (label ++ "-----") := by
    rw [openingLine, openingMark, ascii, ascii, ascii, ← Utf8.encode_append, String.append_assoc]
  rw [start?, hmark, List.append_assoc, dropPrefix?_eq_some_iff.mpr rfl, if_pos (by rfl)]

/-- A closing line ends in a hyphen. -/
theorem getLast?_closingLine (label : String) : (closingLine label).getLast? = some 45 := by
  have hdashes : ascii "-----" = [45, 45, 45, 45] ++ [45] := by decide
  rw [closingLine, ascii, Utf8.encode_append, show Utf8.encode "-----" = ascii "-----" from rfl,
    hdashes, ← List.append_assoc, List.getLast?_concat]

/-- Every spelling of a document is read. -/
theorem Spelled.decode_eq (h : Spelled label document text) :
    decode label text = some document := by
  obtain @⟨body, e₁, e₂, e₃, hbody, h₁, h₂, h₃, hcr⟩ := h
  have hvisible (b : UInt8) (hb : b ∈ Base64.encodeBytes .standard document) : b ≠ lf ∧ b ≠ cr := by
    have hlt := (Base64.visible_of_mem_encodeBytes hb).1
    constructor <;> rintro rfl <;> exact absurd hlt (by decide)
  have hopen : lineEnd? (e₁ ++ (body ++ (e₂ ++ (closingLine label ++ e₃)))) =
      some (body ++ (e₂ ++ (closingLine label ++ e₃))) := by
    refine lineEnd?_append h₁ fun he₁ => ?_
    have hne : Base64.encodeBytes .standard document ≠ [] := by
      intro hnil
      have hread := Base64.decodeBytes_encodeBytes .standard document
      rw [hnil] at hread
      exact hcr he₁ (Except.ok.inj hread).symm
    obtain ⟨b, rest, hb⟩ := List.exists_cons_of_ne_nil hne
    have hhead : body.head? = some b := by rw [hbody.head?_eq, hb, List.head?_cons]
    rw [List.head?_append, hhead, Option.some_or, ne_eq, Option.some_inj]
    exact (hvisible b (by rw [hb]; exact List.mem_cons_self)).1
  have hlast : (body ++ (e₂ ++ closingLine label)).getLast? = some 45 := by
    rw [List.getLast?_append, List.getLast?_append, getLast?_closingLine, Option.some_or,
      Option.some_or]
  have hfinal : (dropLineEnd? (body ++ (e₂ ++ (closingLine label ++ e₃)))).getD
      (body ++ (e₂ ++ (closingLine label ++ e₃))) = body ++ (e₂ ++ closingLine label) := by
    rcases h₃ with rfl | h₃
    · rw [List.append_nil, dropLineEnd?_eq_none (by rw [hlast]; decide) (by rw [hlast]; decide),
        Option.getD_none]
    · rw [← List.append_assoc e₂, ← List.append_assoc body,
        dropLineEnd?_append h₃ (by rw [hlast]; decide), Option.getD_some]
  have hclose :
      dropSuffix? (closingLine label) (body ++ (e₂ ++ closingLine label)) = some (body ++ e₂) :=
    dropSuffix?_eq_some_iff.mpr (List.append_assoc _ _ _).symm
  have hend : dropLineEnd? (body ++ e₂) = some body := by
    refine dropLineEnd?_append h₂ fun hcr => ?_
    rw [hbody.getLast?_eq] at hcr
    exact (hvisible cr (List.mem_of_getLast? hcr)).2 rfl
  have hunwrap : unwrap (body.length + 1) body = some (Base64.encodeBytes .standard document) :=
    hbody.unwrap_eq (fun hlf => (hvisible lf hlf).1 rfl) (Nat.lt_succ_self _)
  rw [decode, start?_openingLine]
  simp only [Option.bind_eq_bind, Option.bind_some]
  rw [dropPrefix?_eq_some_iff.mpr rfl, Option.bind_some, hopen, Option.bind_some, hfinal, hclose,
    Option.bind_some, hend, Option.bind_some, hunwrap, Option.bind_some,
    Base64.decodeBytes_encodeBytes]
  rfl

/-- A document is read back, whatever its bytes and its label. -/
theorem decode_encode (label : String) (document : Bytes) :
    decode label (encode label document) = some document :=
  (spelled_encode label document).decode_eq

/-- A spelling under an ASCII label is ASCII. -/
theorem Spelled.lt (h : Spelled label document text) (hopen : ∀ b ∈ openingLine label, b < 0x80)
    (hclose : ∀ b ∈ closingLine label, b < 0x80) : ∀ b ∈ text, b < 0x80 := by
  have hends (b : UInt8) (hb : b = lf ∨ b = cr) : b < 0x80 := by
    rcases hb with rfl | rfl <;> decide
  obtain ⟨hbody, h₁, h₂, h₃, -⟩ := h
  intro b hb
  simp only [List.mem_append] at hb
  rcases hb with hb | hb | hb | hb | hb | hb
  · exact hopen b hb
  · exact hends b (h₁.mem hb)
  · rcases hbody.mem hb with hb | hb
    · exact (Base64.visible_of_mem_encodeBytes hb).2
    · exact hends b hb
  · exact hends b (h₂.mem hb)
  · exact hclose b hb
  · rcases h₃ with rfl | h₃
    · exact absurd hb List.not_mem_nil
    · exact hends b (h₃.mem hb)

/-! ## Sizes

Every step of the reader drops bytes and adds none. -/

/-- Dropping a preamble keeps the order of the bytes. -/
theorem dropPreamble_sublist (h : dropPreamble bs = some rest) : rest <+ bs := by
  induction bs with
  | nil => contradiction
  | cons b bs ih =>
      rw [dropPreamble] at h
      split at h
      · contradiction
      · split at h
        · obtain rfl := Option.some.inj h
          exact List.sublist_cons_self _ _
        · exact (ih h).cons _

/-- What follows the label keeps the order of the bytes. -/
theorem start?_sublist (h : start? bs = some rest) : rest <+ bs := by
  rw [start?] at h
  split at h
  · obtain rfl := Option.some.inj h
    exact List.Sublist.refl _
  · exact dropPreamble_sublist h

/-- Unwrapping lines only drops bytes. -/
theorem unwrap_sublist (h : unwrap fuel bs = some body) : body <+ bs := by
  induction fuel generalizing bs body with
  | zero =>
      rw [unwrap] at h
      split at h
      · obtain rfl := Option.some.inj h
        exact List.nil_sublist _
      · contradiction
  | succ fuel ih =>
      rw [unwrap] at h
      split at h
      · obtain rfl := Option.some.inj h
        exact List.Sublist.refl _
      · simp only [Option.bind_eq_bind, Option.bind_eq_some_iff] at h
        obtain ⟨tail, htail, joined, hjoined, h⟩ := h
        obtain rfl := Option.some.inj h
        obtain ⟨e, -, htail⟩ := lineEnd?_eq_some htail
        have hjoined : joined <+ bs.drop width := by
          rw [htail]
          exact (ih hjoined).trans (List.sublist_append_right _ _)
        calc bs.take width ++ joined <+ bs.take width ++ bs.drop width := hjoined.append_left _
          _ = bs := List.take_append_drop _ _

/-- A document is not longer than the text that it is read from. -/
theorem length_le_of_decode (h : decode label text = some document) :
    document.length ≤ text.length := by
  simp only [decode, Option.bind_eq_bind, Option.bind_eq_some_iff] at h
  obtain ⟨started, hstart, opened, hopen, ended, hend, closed, hclose, lines, hlines, body, hunwrap,
    hbody⟩ := h
  have hstarted := start?_sublist hstart
  have hopened : opened <+ started := by
    rw [dropPrefix?_eq_some_iff.mp hopen]
    exact List.sublist_append_right _ _
  have hended : ended <+ opened := by
    obtain ⟨e, -, rfl⟩ := lineEnd?_eq_some hend
    exact List.sublist_append_right _ _
  have hdropped {bs rest : Bytes} (h : dropLineEnd? bs = some rest) : rest <+ bs := by
    obtain ⟨e, -, rfl⟩ := dropLineEnd?_eq_some h
    exact List.sublist_append_left _ _
  have hfinal : (dropLineEnd? ended).getD ended <+ ended := by
    cases hdrop : dropLineEnd? ended with
    | none => exact List.Sublist.refl _
    | some rest => exact hdropped hdrop
  have hclosed : closed <+ (dropLineEnd? ended).getD ended := by
    rw [dropSuffix?_eq_some_iff.mp hclose]
    exact List.sublist_append_left _ _
  have hlines := hdropped hlines
  have hbodyText := unwrap_sublist hunwrap
  have hread : body = Base64.encodeBytes .standard document := by
    cases hdecode : Base64.decodeBytes .standard body with
    | error fault =>
        rw [hdecode] at hbody
        contradiction
    | ok bytes =>
        rw [hdecode] at hbody
        obtain rfl := Option.some.inj hbody
        exact Base64.eq_encodeBytes_of_decodeBytes hdecode
  calc document.length ≤ body.length := by
        rw [hread]
        exact Base64.le_length_encodeBytes _ _
    _ ≤ text.length := (hbodyText.trans (hlines.trans (hclosed.trans (hfinal.trans (hended.trans
        (hopened.trans hstarted)))))).length_le

end Keyring.Pem
