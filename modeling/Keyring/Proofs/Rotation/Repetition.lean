import Keyring.Proofs.Key.Sound
import Keyring.Proofs.Rotation.Stay

/-! # Restores that are repeated

A process restores its window and rotates for its bucket again and again, while the clock stays in
the bucket and nobody else changes what is stored for it. A rotation leaves a key that is current
already. A restore does not look: it installs the key of the bucket before and then the bucket's own
one. If the key of the bucket before is stored, the window holds these two keys after each restore.
If it is not, a second restore puts the bucket's own key in the place of the one before.
-/

namespace Keyring.KeyWindow

variable {previous : Option Key} {key : Key} {renewed : Bool}

/-- The window of a process that stays in its bucket: it holds the bucket's own key, and once it is
renewed also the key of the bucket before, in whose place the own key stands if there is none. -/
def held (previous : Option Key) (key : Key) (renewed : Bool) : KeyWindow :=
  if renewed then .two (previous.getD key) key else .one key

/-- What a first restore installs. -/
theorem renew_empty : empty.renew previous key = held previous key previous.isSome := by
  cases previous <;> rfl

/-- A later restore leaves the same window, once it is renewed. -/
theorem renew_held : (held previous key renewed).renew previous key = held previous key true := by
  cases previous <;> cases renewed <;> rfl

/-- What a first rotation installs. -/
theorem accept_empty : empty.accept key = held previous key false := rfl

/-- The current key is the bucket's own. -/
theorem current?_held : (held previous key renewed).current? = some key := by
  cases renewed <;> rfl

/-- A later rotation installs nothing. -/
theorem accept_held : (held previous key renewed).accept key = held previous key renewed := by
  rw [accept, current?_held, if_pos]
  exact Key.same_iff.mpr rfl

/-- The window holds no key twice, unless it is renewed and its keys have one name. -/
theorem nodup_held : ((held previous key renewed).toList.map Key.id).Nodup ↔
    (renewed → (previous.getD key).id ≠ key.id) := by
  cases renewed with
  | false => simp [held, toList]
  | true => simp [held, toList]

end Keyring.KeyWindow

namespace Keyring.Rotation

open Store

/-! ## A process in its bucket -/

/-- A process among others, with the errand that it is on and those that it has ended, the first one
first. -/
structure Stay where
  standing : Standing
  task : Option Task := none
  journal : List (Deed Unit) := []

/-- What may happen. -/
inductive Stay.Move
  /-- The clock and the store come to other times, and others change the ledger. -/
  | outside (clock now : Duration) (ledger : Ledger)
  /-- The process sets out on an errand. -/
  | begin (e : Errand)
  /-- The request that the process waits with is answered. -/
  | answer (reply : Reply)
  /-- The errand ends. -/
  | conclude

/-- The errand that a move begins is a restore or a rotation for the bucket. -/
def Stay.Move.IsFor (b : Bucket) : Move → Prop
  | .begin e => e = .restore ∨ e = .rotate b
  | _ => True

/-- The outcome of a restore that came out well. -/
def Outcome.isRestored : Outcome → Bool
  | .restored (.ok _) => true
  | _ => false

namespace Stay

/-- A process with an empty window. -/
def enter (clock now : Duration) (l : Ledger) : Stay :=
  ⟨{ clock, now, shared := { ledger := l } }, none, []⟩

/-- What a move leads to, if it can be made. -/
def move (r : Rotater) (s : Stay) : Move → Option Stay
  | .outside clock now ledger =>
    some { s with
      standing := { s.standing with clock, now, shared := { s.standing.shared with ledger } } }
  | .begin e =>
    match s.task with
    | none =>
      let own := s.standing.own.fresh
      some { s with
        standing := { s.standing with own }
        task := some ⟨e, e.program r, s.standing.clock, (s.standing.shared, own)⟩ }
    | some _ => none
  | .answer reply =>
    match s.task with
    | some ⟨e, .ask q next, began, before⟩ =>
      match s.standing.answer? r.interval q reply with
      | some (a, standing) => some { s with standing, task := some ⟨e, next a, began, before⟩ }
      | none => none
    | _ => none
  | .conclude =>
    match s.task with
    | some ⟨e, .done outcome, began, before⟩ =>
      some { s with
        task := none
        journal := s.journal ++ [⟨(), e, outcome, began, before, s.standing.own⟩] }
    | _ => none

/-- The name of the creation that a move carries out. -/
def creates? (s : Stay) : Move → Option String
  | .answer reply =>
    match s.task with
    | some ⟨_, .ask q _, _, _⟩ => reply.creates? q
    | _ => none
  | _ => none

/-- The clock stays in the bucket and the store stays as it is: what is live stays, no key of the
bucket before comes or goes, and what the process creates is live then. The process is asked for
nothing but restores and rotations for the bucket. -/
structure Still (r : Rotater) (b : Bucket) (s : Stay) (m : Move) (s' : Stay) : Prop where
  bucket : r.bucketAt s'.standing.clock = b
  live : ∀ name, (s.standing.live? name).isSome → s'.standing.live? name = s.standing.live? name
  previous : s'.standing.live? b.previous.blobName = s.standing.live? b.previous.blobName
  created : ∀ name ∈ s.creates? m, (s'.standing.live? name).isSome
  errand : m.IsFor b

variable {r : Rotater} {b : Bucket} {s s' : Stay} {m : Move}

/-- While the store stays as it is, it stays so for the restores of the bucket. -/
theorem Still.stays (h : Still r b s m s') : s.standing.Stays b s'.standing where
  live name _ hlive := (h.live name (Option.isSome_of_mem hlive)).trans hlive
  previous := h.previous

/-- The window when no errand is under way, or that before the errand. -/
def resting (s : Stay) : KeyWindow :=
  match s.task with
  | none => s.standing.own.window
  | some t => t.before.2.window

end Stay

/-- The key that is stored for a bucket, if there is one and it can be read. -/
def Standing.key? (g : Standing) (b : Bucket) : Option Key := (g.keyOf b).toOption.join

/-! ## One errand -/

section Leads

variable {b : Bucket} {v : KeyWindow} {held held' : Prop} {g g' : Standing} {o : Outcome}
  {key : Key} {renewed : Bool}

theorem Standing.Leads.imp (h : g.Leads b v held o) (himp : held' → held) :
    g.Leads b v held' o := by
  rcases o with _ | _ | (err | b') | (err | key)
  · exact h
  · exact h
  · exact fun hheld => h (himp hheld)
  · exact h
  · exact h
  · exact h

/-- What an errand came to lasts. -/
theorem Standing.Leads.stays (h : g.Leads b v held o) (hstays : g.Stays b g')
    (hwindow : g'.own.window = g.own.window) : g'.Leads b v held o := by
  rcases o with _ | _ | (err | b') | (err | key)
  · exact h
  · exact h
  · exact fun hheld => hwindow.trans (h hheld)
  · obtain ⟨hb, previous, key, hprevious, hkey, hw⟩ := h
    exact ⟨hb, previous, key, hstays.keyOf_previous.trans hprevious, hstays.keyOf hkey,
      hwindow.trans hw⟩
  · exact hwindow.trans h
  · exact ⟨hstays.keyOf h.1, hwindow.trans h.2⟩

/-- After an errand that came out well the bucket's own key is stored. -/
theorem Standing.Leads.stored (h : g.Leads b v held o) (hwell : o.error? = none) :
    ∃ key, g.keyOf b = .ok (some key) := by
  rcases o with _ | _ | (err | b') | (err | key)
  · exact h.elim
  · exact h.elim
  · contradiction
  · obtain ⟨-, -, key, -, hkey, -⟩ := h
    exact ⟨key, hkey⟩
  · contradiction
  · exact ⟨key, h.1⟩

/-- What an errand made of the window that it began with, unless it is a restore that failed before
the bucket's own key was stored. -/
theorem Standing.Leads.window (h : g.Leads b v held o) (hheld : o.error? = none ∨ held)
    (hkey : g.keyOf b = .ok (some key)) :
    o.isRestored = true ∧ g.own.window = v.renew (g.key? b.previous) key ∨
      o.isRestored = false ∧
        (g.own.window = v.accept key ∨ o.error?.isSome ∧ g.own.window = v) := by
  rcases o with _ | _ | (err | b') | (err | key')
  · exact h.elim
  · exact h.elim
  · rcases hheld with hheld | hheld
    · contradiction
    · exact .inr ⟨rfl, .inr ⟨rfl, h hheld⟩⟩
  · obtain ⟨-, previous, key', hprevious, hkey', hwindow⟩ := h
    obtain rfl := Option.some.inj (Except.ok.inj (hkey.symm.trans hkey'))
    have hread : g.key? b.previous = previous := by
      rw [Standing.key?, hprevious]
      rfl
    rw [← hread] at hwindow
    exact .inl ⟨rfl, hwindow⟩
  · exact .inr ⟨rfl, .inr ⟨rfl, h⟩⟩
  · obtain rfl := Option.some.inj (Except.ok.inj (hkey.symm.trans h.1))
    exact .inr ⟨rfl, .inl h.2⟩

/-- The first errand that comes out well, from an empty window. -/
theorem Standing.Leads.of_empty (h : g.Leads b .empty held o) (hwell : o.error? = none)
    (hkey : g.keyOf b = .ok (some key)) :
    g.own.window = .held (g.key? b.previous) key (o.isRestored && (g.key? b.previous).isSome) := by
  rcases h.window (.inl hwell) hkey with ⟨hrestored, hwindow⟩ | ⟨hrestored, hwindow | ⟨hfailed, -⟩⟩
  · rw [hwindow, hrestored, Bool.true_and, KeyWindow.renew_empty]
  · rw [hwindow, hrestored, Bool.false_and, KeyWindow.accept_empty]
  · rw [hwell] at hfailed
    contradiction

/-- A later errand. -/
theorem Standing.Leads.of_held (h : g.Leads b (.held (g.key? b.previous) key renewed) held o)
    (hheld : held) (hkey : g.keyOf b = .ok (some key)) :
    g.own.window = .held (g.key? b.previous) key (renewed || o.isRestored) := by
  rcases h.window (.inr hheld) hkey with ⟨hrestored, hwindow⟩ | ⟨hrestored, hwindow | ⟨-, hwindow⟩⟩
  · rw [hwindow, hrestored, Bool.or_true, KeyWindow.renew_held]
  · rw [hwindow, hrestored, Bool.or_false, KeyWindow.accept_held]
  · rw [hwindow, hrestored, Bool.or_false]

end Leads

/-! ## Runs -/

namespace Stay

variable {r : Rotater} {b : Bucket} {s s' : Stay} {m : Move} {earlier later : List (Deed Unit)}
  {first d : Deed Unit} {previous : Option Key} {key : Key} {w : KeyWindow}

/-- The window is renewed by a later restore that came out well, or by the first one if there is a
key of the bucket before. -/
def renewed (previous : Option Key) (first : Deed Unit) (later : List (Deed Unit)) : Bool :=
  first.outcome.isRestored && previous.isSome || later.any (·.outcome.isRestored)

/-- What the window was made by the errands since the first that came out well. -/
structure History (previous : Option Key) (key : Key) (first : Deed Unit) (later : List (Deed Unit))
    (w : KeyWindow) : Prop where
  window : w = .held previous key (renewed previous first later)
  first : first.after.window = .held previous key (first.outcome.isRestored && previous.isSome)
  later : ∀ d ∈ later, d.outcome.isRestored → d.after.window = .held previous key true

/-- One more errand extends a history if it leaves the window that the history says. -/
theorem History.append (h : History previous key first later w)
    (hwindow : d.after.window =
      .held previous key (renewed previous first later || d.outcome.isRestored)) :
    History previous key first (later ++ [d]) d.after.window where
  window := by
    rw [hwindow, renewed, renewed, List.any_append, List.any_cons, List.any_nil, Bool.or_false,
      Bool.or_assoc]
  first := h.first
  later x hx hrestored := by
    rcases List.mem_append.mp hx with hx | hx
    · exact h.later x hx hrestored
    · obtain rfl := List.mem_singleton.mp hx
      rw [hwindow, hrestored, Bool.or_true]

/-- The invariant of a process that stays in its bucket. -/
structure Sound (r : Rotater) (b : Bucket) (s : Stay) : Prop where
  stored : ∀ d ∈ s.journal, d.outcome.error? = none → ∃ key, s.standing.keyOf b = .ok (some key)
  task : ∀ t ∈ s.task, t.rest.Meets (stayRules r b)
    (fun o g => g.Leads b t.before.2.window (∃ d ∈ s.journal, d.outcome.error? = none) o) s.standing
  history : ∀ earlier first later, s.journal = earlier ++ first :: later →
    first.outcome.error? = none →
    first.before.2.window = .empty → ∀ key, s.standing.keyOf b = .ok (some key) →
      History (s.standing.key? b.previous) key first later s.resting

/-- A process that has done nothing yet is sound. -/
theorem sound_enter (clock now : Duration) (l : Ledger) : Sound r b (enter clock now l) where
  stored d hd := absurd hd List.not_mem_nil
  task t ht := by contradiction
  history earlier first later h :=
    absurd h.symm (List.append_ne_nil_of_right_ne_nil _ (List.cons_ne_nil _ _))

/-- As long as no errand ends, only the errand under way matters. -/
theorem Sound.stays (h : s.Sound r b) (hstays : s.standing.Stays b s'.standing)
    (hjournal : s'.journal = s.journal) (hresting : s'.resting = s.resting)
    (htask : ∀ t ∈ s'.task, t.rest.Meets (stayRules r b) (fun o g =>
      g.Leads b t.before.2.window (∃ d ∈ s.journal, d.outcome.error? = none) o) s'.standing) :
    s'.Sound r b where
  stored d hd hwell := by
    rw [hjournal] at hd
    obtain ⟨key, hkey⟩ := h.stored d hd hwell
    exact ⟨key, hstays.keyOf hkey⟩
  task := by
    rw [hjournal]
    exact htask
  history earlier first later hsplit hwell hempty key hkey := by
    rw [hjournal] at hsplit
    have hfirst : first ∈ s.journal := by
      rw [hsplit]
      exact List.mem_append_right _ List.mem_cons_self
    obtain ⟨key', hkey'⟩ := h.stored first hfirst hwell
    obtain rfl := Option.some.inj (Except.ok.inj ((hstays.keyOf hkey').symm.trans hkey))
    rw [Standing.key?, hstays.keyOf_previous, hresting]
    exact h.history earlier first later hsplit hwell hempty key' hkey'

/-- Others leave an errand on its course. -/
theorem Sound.outside {clock now : Duration} {ledger : Ledger} (h : s.Sound r b)
    (hstill : Still r b s (.outside clock now ledger) s')
    (hm : s.move r (.outside clock now ledger) = some s') : s'.Sound r b := by
  have hstays := hstill.stays
  obtain rfl := Option.some.inj hm
  refine h.stays hstays rfl rfl fun t ht => ?_
  refine (h.task t ht).grow (fun _ _ => trivial) ?_ fun o hleads => hleads.stays hstays rfl
  rintro q a g' ⟨⟨h', reply, hadds, hanswer⟩, hstays', hbucket⟩
  refine ⟨⟨h', reply, ?_, hanswer⟩, hstays.trans hstays', hbucket⟩
  exact ⟨hadds.window, hadds.readings, hadds.accesses, fun name blob hlive =>
    hadds.live name blob (hstays.live name blob hlive)⟩

/-- A process sets out with the promise of its errand. -/
theorem Sound.begin {e : Errand} (h : s.Sound r b) (hstill : Still r b s (.begin e) s')
    (hm : s.move r (.begin e) = some s') : s'.Sound r b := by
  have hstays := hstill.stays
  rw [Stay.move] at hm
  cases htask : s.task with
  | some t =>
      rw [htask] at hm
      contradiction
  | none =>
      rw [htask] at hm
      obtain rfl := Option.some.inj hm
      refine h.stays hstays rfl ?_ fun t ht => ?_
      · rw [resting, resting, htask]
        rfl
      · obtain rfl := Option.some.inj ht
        refine (stay_program r b _ hstill.errand).mono fun o g hleads => hleads.imp ?_
        rintro ⟨d, hd, hwell⟩
        obtain ⟨key, hkey⟩ := h.stored d hd hwell
        obtain ⟨pem, hlive⟩ := Standing.exists_live_of_keyOf (hstays.keyOf hkey)
        exact Option.isSome_of_mem hlive

/-- An answer leaves an errand on its course. -/
theorem Sound.answer {reply : Reply} (h : s.Sound r b) (hstill : Still r b s (.answer reply) s')
    (hm : s.move r (.answer reply) = some s') : s'.Sound r b := by
  have hstays := hstill.stays
  have hcreated := hstill.created
  have hbucket := hstill.bucket
  obtain ⟨g, task, journal⟩ := s
  rcases task with _ | ⟨e, o | ⟨q, next⟩, began, before⟩
  · contradiction
  · contradiction
  · rw [Stay.move] at hm
    simp only at hm
    split at hm
    · next a g' hanswer =>
        obtain rfl := Option.some.inj hm
        refine h.stays hstays rfl rfl fun t ht => ?_
        obtain rfl := Option.some.inj ht
        exact (h.task _ rfl).2 a g' ⟨⟨g, reply, .refl g, hanswer, hcreated⟩, hstays, hbucket⟩
    · contradiction

/-- An errand that ends goes into the history. -/
theorem Sound.conclude (h : s.Sound r b) (hm : s.move r .conclude = some s') : s'.Sound r b := by
  obtain ⟨g, task, journal⟩ := s
  rcases task with _ | ⟨e, o | ⟨q, next⟩, began, before⟩
  · contradiction
  · obtain rfl := Option.some.inj hm
    have hleads : g.Leads b before.2.window (∃ d ∈ journal, d.outcome.error? = none) o :=
      h.task _ rfl
    refine ⟨fun d hd hwell => ?_, fun t ht => by contradiction, ?_⟩
    · rcases List.mem_append.mp hd with hd | hd
      · exact h.stored d hd hwell
      · obtain rfl := List.mem_singleton.mp hd
        exact hleads.stored hwell
    · intro earlier first later hsplit hwell hempty key hkey
      rcases List.eq_nil_or_concat later with rfl | ⟨front, last, rfl⟩
      · -- The errand is the first that came out well.
        obtain ⟨-, hfirst⟩ := List.append_inj' hsplit rfl
        obtain rfl := List.head_eq_of_cons_eq hfirst
        rw [show before.2.window = .empty from hempty] at hleads
        have hwindow := hleads.of_empty hwell hkey
        refine ⟨?_, hwindow, fun d hd => absurd hd List.not_mem_nil⟩
        rw [renewed, List.any_nil, Bool.or_false]
        exact hwindow
      · -- The errand is one after that.
        rw [List.concat_eq_append, ← List.cons_append, ← List.append_assoc] at hsplit
        obtain ⟨hjournal, hlast⟩ : journal = earlier ++ first :: front ∧ _ :=
          List.append_inj' hsplit rfl
        obtain rfl := List.head_eq_of_cons_eq hlast
        have hhistory := h.history earlier first front hjournal hwell hempty key hkey
        have hfirst : first ∈ journal := by
          rw [hjournal]
          exact List.mem_append_right _ List.mem_cons_self
        have hresting : before.2.window = _ := hhistory.window
        rw [hresting] at hleads
        rw [List.concat_eq_append]
        exact hhistory.append (hleads.of_held ⟨first, hfirst, hwell⟩ hkey)
  · contradiction

/-- Every move keeps the process sound. -/
theorem Sound.move (h : s.Sound r b) (hm : s.move r m = some s') (hstill : Still r b s m s') :
    s'.Sound r b := by
  cases m with
  | outside clock now ledger => exact h.outside hstill hm
  | begin e => exact h.begin hstill hm
  | answer reply => exact h.answer hstill hm
  | conclude => exact h.conclude hm

/-- The process is sound as long as the clock stays in the bucket and the store stays as it is. -/
theorem sound_of_reaches {clock now : Duration} {l : Ledger}
    (h : Reaches (move r) (Still r b) (enter clock now l) s) : s.Sound r b :=
  h.invariant (P := Sound r b) (sound_enter clock now l) fun _ _ _ hs hm hstill => hs.move hm hstill

/-! ## Repetition -/

/-- Restores and rotations for one bucket, one after the other and from an empty window on. Once one
of them came out well, the bucket's own key is stored. If that was a restore, a later restore that
comes out well leaves the window as the first one made it exactly if a key is stored for the bucket
before. The keys of the window have different names exactly if the two stored keys have, as far as a
restore came out well, and no restore was repeated without a key for the bucket before. -/
theorem repeatable_iff {clock now : Duration} {l : Ledger}
    (h : Reaches (move r) (Still r b) (enter clock now l) s) (hidle : s.task = none)
    (hjournal : s.journal = earlier ++ first :: later) (hwell : first.outcome.error? = none)
    (hempty : first.before.2.window = .empty) :
    ∃ key, s.standing.key? b = some key ∧
      (first.outcome.isRestored → ∀ d ∈ later, d.outcome.isRestored →
        (d.after.window = first.after.window ↔ (s.standing.key? b.previous).isSome)) ∧
      ((s.standing.own.window.toList.map Key.id).Nodup ↔
        (∀ kp ∈ s.standing.key? b.previous, (∃ d ∈ first :: later, d.outcome.isRestored) →
          kp.id ≠ key.id) ∧
          (s.standing.key? b.previous = none → ∀ d ∈ later, ¬ d.outcome.isRestored)) := by
  have hsound := sound_of_reaches h
  obtain ⟨key, hkey⟩ :=
    hsound.stored first (by rw [hjournal]; exact List.mem_append_right _ List.mem_cons_self) hwell
  have hhistory := hsound.history earlier first later hjournal hwell hempty key hkey
  have hwindow := hhistory.window
  rw [resting, hidle] at hwindow
  refine ⟨key, ?_, fun hfirst d hd hrestored => ?_, ?_⟩
  · rw [Standing.key?, hkey]
    rfl
  · rw [hhistory.later d hd hrestored, hhistory.first, hfirst, Bool.true_and]
    cases s.standing.key? b.previous with
    | none => exact iff_of_false (fun h => by contradiction) Bool.false_ne_true
    | some kp => exact iff_of_true rfl rfl
  · rw [show s.standing.own.window = _ from hwindow, KeyWindow.nodup_held, renewed]
    cases s.standing.key? b.previous with
    | none => simp
    | some kp => simp

/-! ## Runs that can be played -/

instance (b : Bucket) (m : Move) : Decidable (m.IsFor b) :=
  match m with
  | .begin e => inferInstanceAs (Decidable (e = .restore ∨ e = .rotate b))
  | .outside _ _ _ | .answer _ | .conclude => isTrue trivial

instance (r : Rotater) (b : Bucket) (s : Stay) (m : Move) (s' : Stay) :
    Decidable (Still r b s m s') :=
  decidable_of_iff (r.bucketAt s'.standing.clock = b ∧
      (∀ name ∈ s.standing.shared.ledger.entries.map Prod.fst,
        (s.standing.live? name).isSome → s'.standing.live? name = s.standing.live? name) ∧
      s'.standing.live? b.previous.blobName = s.standing.live? b.previous.blobName ∧
      (∀ name ∈ s.creates? m, (s'.standing.live? name).isSome) ∧ m.IsFor b) (by
    constructor
    · rintro ⟨hbucket, hlive, hprevious, hcreated, herrand⟩
      exact ⟨hbucket, fun name hname => hlive name (Ledger.mem_of_live hname) hname, hprevious,
        hcreated, herrand⟩
    · rintro ⟨hbucket, hlive, hprevious, hcreated, herrand⟩
      exact ⟨hbucket, fun name _ hname => hlive name hname, hprevious, hcreated, herrand⟩)

/-- Two restores in bucket 3. The first one finds the key of bucket 2 and generates that of its own
bucket. -/
def twice : List Move :=
  [.begin .restore, .answer .served, .answer .served, .answer .served, .answer .served,
   .answer (.generated (.ok .small85)), .answer .served, .answer .served, .conclude,
   .begin .restore, .answer .served, .answer .served, .answer .served, .answer .served,
   .answer .served, .conclude]

/-- The second of the two restores leaves the window as the first one made it, and the names are
different. -/
theorem repeatable_twice : ∃ s first second,
    Reaches (move brisk) (Still brisk (.clamp 3))
      (enter (.ofSeconds 30) (.ofSeconds 20) Visit.heldOver) s ∧
      s.task = none ∧ s.journal = [first, second] ∧ first.before.2.window = .empty ∧
      first.outcome = .restored (.ok (.clamp 3)) ∧ second.outcome = .restored (.ok (.clamp 3)) ∧
      second.after.window = first.after.window ∧
      (s.standing.own.window.toList.map Key.id).Nodup := by
  have hrun : ((play (move brisk) (Still brisk (.clamp 3)) twice
      (enter (.ofSeconds 30) (.ofSeconds 20) Visit.heldOver)).any fun s =>
        s.task.isNone ∧
        s.journal.map (fun d => (d.outcome, d.before.2.window)) =
          [(.restored (.ok (.clamp 3)), .empty),
            (.restored (.ok (.clamp 3)), .two .small55 .small85)] ∧
        s.standing.key? (Bucket.clamp 3).previous = some .small55 ∧
        s.standing.key? (.clamp 3) = some .small85) = true := by
    decide +kernel
  simp only [Option.any_eq_true, decide_eq_true_eq, Option.isNone_iff_eq_none] at hrun
  obtain ⟨s, hs, hidle, hjournal, hprevious, hown⟩ := hrun
  have hreaches := Reaches.refl.play hs
  obtain ⟨first, rest, hjournal, hfirst, hrest⟩ := List.map_eq_cons_iff.mp hjournal
  obtain ⟨second, rest, rfl, hsecond, hrest⟩ := List.map_eq_cons_iff.mp hrest
  obtain rfl := List.map_eq_nil_iff.mp hrest
  obtain ⟨hfirst, hempty⟩ := Prod.mk.inj hfirst
  obtain ⟨hsecond, -⟩ := Prod.mk.inj hsecond
  obtain ⟨key, hkey, hrepeat, hnodup⟩ := repeatable_iff hreaches hidle
    (show s.journal = [] ++ first :: [second] from hjournal) (by rw [hfirst]; rfl) hempty
  obtain rfl := Option.some.inj (hkey.symm.trans hown)
  refine ⟨s, first, second, hreaches, hidle, hjournal, hempty, hfirst, hsecond, ?_,
    hnodup.mpr ⟨?_, ?_⟩⟩
  · apply (hrepeat (by rw [hfirst]; rfl) second List.mem_cons_self (by rw [hsecond]; rfl)).mpr
    rw [hprevious]
    rfl
  · rintro kp hkp -
    obtain rfl := Option.some.inj (hprevious.symm.trans hkp)
    apply Key.id_ne_of_digest_ne
    rw [Key.digest_eq, Key.digest_eq]
    decide +kernel
  · intro hnone
    rw [hprevious] at hnone
    exact absurd hnone (Option.some_ne_none _)

/-- Two restores in bucket 3 for which there is no key of bucket 2. -/
def twiceAlone : List Move :=
  [.begin .restore, .answer .served, .answer .served, .answer .served,
    .answer (.generated (.ok .small85)),
   .answer .served, .answer .served, .conclude,
   .begin .restore, .answer .served, .answer .served, .answer .served, .answer .served, .conclude]

/-- The second restore puts the bucket's own key in the place of the one before, so the window holds
it twice. -/
theorem doubled_twice : ∃ s first second,
    Reaches (move brisk) (Still brisk (.clamp 3)) (enter (.ofSeconds 30) (.ofSeconds 20) {}) s ∧
      s.task = none ∧ s.journal = [first, second] ∧
      first.outcome = .restored (.ok (.clamp 3)) ∧ second.outcome = .restored (.ok (.clamp 3)) ∧
      first.after.window = .one .small85 ∧ second.after.window = .two .small85 .small85 ∧
      s.standing.own.window = .two .small85 .small85 ∧
      ¬ (s.standing.own.window.toList.map Key.id).Nodup := by
  have hrun : ((play (move brisk) (Still brisk (.clamp 3)) twiceAlone
      (enter (.ofSeconds 30) (.ofSeconds 20) {})).any fun s =>
        s.task.isNone ∧
        s.journal.map (fun d => (d.outcome, d.after.window)) =
          [(.restored (.ok (.clamp 3)), .one .small85),
            (.restored (.ok (.clamp 3)), .two .small85 .small85)] ∧
        s.standing.own.window = .two .small85 .small85) = true := by
    decide +kernel
  simp only [Option.any_eq_true, decide_eq_true_eq, Option.isNone_iff_eq_none] at hrun
  obtain ⟨s, hs, hidle, hjournal, hwindow⟩ := hrun
  obtain ⟨first, rest, hjournal, hfirst, hrest⟩ := List.map_eq_cons_iff.mp hjournal
  obtain ⟨second, rest, rfl, hsecond, hrest⟩ := List.map_eq_cons_iff.mp hrest
  obtain rfl := List.map_eq_nil_iff.mp hrest
  obtain ⟨hfirst, hfirstWindow⟩ := Prod.mk.inj hfirst
  obtain ⟨hsecond, hsecondWindow⟩ := Prod.mk.inj hsecond
  refine ⟨s, first, second, Reaches.refl.play hs, hidle, hjournal, hfirst, hsecond, hfirstWindow,
    hsecondWindow, hwindow, ?_⟩
  rw [hwindow]
  exact fun hnodup => (List.nodup_cons.mp hnodup).1 List.mem_cons_self

end Stay

end Keyring.Rotation
