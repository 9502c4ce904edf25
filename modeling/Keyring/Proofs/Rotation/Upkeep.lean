import Keyring.Proofs.Key
import Keyring.Proofs.Rotation.Loop

/-! # What the loop makes of a window

The loop rotates for ever later buckets, one at a time. Its window is at every moment what the
outcomes so far made of the first one, its reports are the failures among them, and once it has
ended nothing changes any more.
-/

namespace Keyring.Rotation

variable {σ : Type} {w : World σ} {v : KeyWindow}

/-! ## A rotation and its window -/

/-- The rules of a process alone with its window. Only installing changes the window, and a program
asks for nothing more once the window is not the one that it began with. -/
def windowRules (v : KeyWindow) : Rules KeyWindow where
  may window _ := window = v
  answers window q a window' :=
    match q, a with
    | .current, a => a = window.current? ∧ window' = window
    | .install key, _ => window' = window.rotate key
    | .time, _ | .store _, _ | .generate _, _ => window' = window

/-- The world answers by the rules of the window. -/
theorem answers_answer (w : World σ) (q : Request) (window : KeyWindow) (s : σ) :
    (windowRules v).answers window q (q.answer w window s).1 (q.answer w window s).2.1 := by
  cases q with
  | current => exact ⟨rfl, rfl⟩
  | _ => rfl

/-- A search leaves the window as it is. -/
theorem meets_find_alone (b : Bucket) :
    (Rotater.find b).run.Meets (windowRules v) (fun _ window => window = v) v := by
  rw [Rotater.find, Action.meets_bind]
  refine (Action.meets_call (.read b.blobName) _ v).mpr ⟨rfl, ?_⟩
  rintro (err | _ | pem) window rfl
  · rfl
  · rfl
  · simp only [Action.meets_bind, Action.meets_ofExcept]
    cases Key.ofPem pem with
    | error err => exact trivial
    | ok k => rfl

/-- A generation leaves the window as it is. -/
theorem meets_generateFor_alone (r : Rotater) (b : Bucket) :
    (r.generateFor b).run.Meets (windowRules v) (fun _ window => window = v) v := by
  rw [Rotater.generateFor, Action.meets_bind, Action.meets_freshKey]
  refine ⟨rfl, ?_⟩
  rintro (err | k) window rfl
  · rfl
  simp only [Action.meets_bind, Action.meets_ofExcept]
  cases k.toPem with
  | error err => exact trivial
  | ok pem =>
      refine (Action.meets_call (.create b.blobName pem (Bucket.blobTtl r.interval)) _ window).mpr
        ⟨rfl, ?_⟩
      rintro (err | _ | _) window rfl
      · rfl
      · simp only [Bool.false_eq_true, if_false, Action.meets_bind]
        apply (meets_find_alone b).mono
        rintro (err | _ | winner) _ rfl <;> rfl
      · rfl

/-- A rotation leaves the window as it is until it installs a key, which is the last thing it does,
and it does so only if the key is not the current one already. -/
theorem meets_rotate_alone (r : Rotater) (b : Bucket) :
    (r.rotate b).run.Meets (windowRules v) (fun outcome window => window = v.settle outcome) v := by
  rw [Rotater.rotate, Action.meets_bind]
  apply (meets_generateFor_alone r b).mono
  rintro (err | x) window rfl
  · rfl
  simp only [Action.meets_bind, Action.meets_currentKey]
  refine ⟨rfl, ?_⟩
  rintro _ window ⟨rfl, rfl⟩
  by_cases hsame : window.current?.any (·.same x.key)
  · simp only [hsame, if_true, Action.meets_pure]
    rw [KeyWindow.settle, KeyWindow.accept, if_pos hsame]
  · simp only [hsame]
    refine ⟨rfl, fun _ window' hinstall => ?_⟩
    show window' = window.settle (.ok x.key)
    rw [KeyWindow.settle, KeyWindow.accept, if_neg hsame]
    exact hinstall

/-! ## Order -/

/-- The failures among rotations. -/
def failuresOf (ended : List (Bucket × Except Error Key)) : List Error :=
  ended.filterMap fun p => match p.2 with
    | .ok _ => none
    | .error e => some e

/-- The loop is where it should be: `v` is the window that the outcomes so far have led to. -/
def Maintenance.Stage.Fits (v window : KeyWindow) : Maintenance.Stage → Prop
  | .awaiting => window = v
  | .resumed _ rest =>
    window = v ∧ rest.Meets (windowRules v) (fun outcome window => window = v.settle outcome) window
  | .working _ rest =>
    rest.Meets (windowRules v) (fun outcome window => window = v.settle outcome) window
  | .stopped => window = v

/-- The buckets that were handed to the loop are those of the rotations that ended, and perhaps the
one that the loop is at or was stopped at. -/
def Maintenance.Stage.InTurn (handed ended : List Bucket) : Maintenance.Stage → Prop
  | .awaiting => handed = ended
  | .resumed b _ => handed = ended ++ [b]
  | .working b _ => handed = ended ++ [b]
  | .stopped => handed = ended ∨ ∃ b, handed = ended ++ [b]

/-- Rotations end in the order in which buckets were handed, and at most one has not ended. -/
theorem prefix_of_inTurn {handed ended : List Bucket} {stage : Maintenance.Stage}
    (h : stage.InTurn handed ended) : ended <+: handed ∧ handed.length ≤ ended.length + 1 := by
  have hcases : handed = ended ∨ ∃ b, handed = ended ++ [b] := by
    cases stage with
    | awaiting => exact .inl h
    | resumed b rest => exact .inr ⟨b, h⟩
    | working b rest => exact .inr ⟨b, h⟩
    | stopped => exact h
  rcases hcases with rfl | ⟨b, rfl⟩
  · exact ⟨List.prefix_refl _, Nat.le_succ _⟩
  · rw [List.length_append]
    exact ⟨List.prefix_append _ _, Nat.le_refl _⟩

variable {W : KeyWindow} {restored : Bucket} {handed : List Bucket}
  {ended : List (Bucket × Except Error Key)} {m m' : Maintenance} {s s' : σ}

/-- The invariant of a loop that began with a window after a restore for a bucket: what it was
handed, which rotations ended, and how it stands. -/
structure Orderly (W : KeyWindow) (restored : Bucket) (handed : List Bucket)
    (ended : List (Bucket × Except Error Key)) (m : Maintenance) : Prop where
  ahead : m.ticker.Ahead (restored :: handed)
  increasing : (restored :: handed).Pairwise (· < ·)
  inTurn : m.stage.InTurn handed (ended.map (·.1))
  window : m.stage.Fits ((ended.map (·.2)).foldl KeyWindow.settle W) m.window
  reports : m.reports = failuresOf ended

/-- A loop is in order when it starts. -/
theorem orderly_start (rotater : Rotater) (W : KeyWindow) (restored : Bucket) :
    Orderly W restored [] [] (.start rotater W restored) where
  ahead := .startingAt _ restored
  increasing := List.pairwise_singleton _ _
  inTurn := rfl
  window := rfl
  reports := rfl

/-- A loop that stops between rotations stays in order. -/
theorem Orderly.stop (h : Orderly W restored handed ended m)
    (hstage : m.stage = .awaiting ∨ ∃ b rest, m.stage = .resumed b rest) :
    Orderly W restored handed ended m.stop := by
  refine ⟨h.ahead, h.increasing, ?_, ?_, h.reports⟩
  · have hinTurn := h.inTurn
    rcases hstage with hstage | ⟨b, rest, hstage⟩ <;> rw [hstage] at hinTurn
    · exact .inl hinTurn
    · exact .inr ⟨b, hinTurn⟩
  · have hwindow := h.window
    rcases hstage with hstage | ⟨b, rest, hstage⟩ <;> rw [hstage] at hwindow
    · exact hwindow
    · exact hwindow.1

/-- A loop that is handed a bucket stays in order. -/
theorem Orderly.hand {b : Bucket} (h : Orderly W restored handed ended m)
    (hstage : m.stage = .awaiting) (hslot : m.ticker.slot = some b) :
    Orderly W restored (handed ++ [b]) ended
      { m with ticker := { m.ticker with slot := none }
               stage := .resumed b (m.rotater.rotate b).run } where
  ahead := h.ahead.receive hslot
  increasing := by
    rw [← List.cons_append, List.pairwise_append]
    refine ⟨h.increasing, List.pairwise_singleton _ _, fun x hx y hy => ?_⟩
    obtain rfl := List.mem_singleton.mp hy
    exact (h.ahead.lt_slot y hslot).1 x hx
  inTurn := by
    have hinTurn := h.inTurn
    rw [hstage] at hinTurn
    exact congrArg (· ++ [b]) hinTurn
  window := by
    have hwindow := h.window
    rw [hstage] at hwindow
    refine ⟨hwindow, ?_⟩
    show Program.Meets _ _ _ m.window
    rw [show m.window = _ from hwindow]
    exact meets_rotate_alone m.rotater b
  reports := h.reports

/-- A loop whose rotation ends stays in order. -/
theorem Orderly.conclude {b : Bucket} {outcome : Except Error Key}
    (h : Orderly W restored handed ended m) (hstage : m.stage = .working b (.done outcome)) :
    Orderly W restored handed (ended ++ [(b, outcome)]) (m.conclude outcome) where
  ahead := h.ahead
  increasing := h.increasing
  inTurn := by
    have hinTurn := h.inTurn
    rw [hstage] at hinTurn
    rw [List.map_append]
    exact hinTurn
  window := by
    have hwindow := h.window
    rw [hstage] at hwindow
    rw [List.map_append, List.foldl_append]
    exact hwindow
  reports := by
    rw [failuresOf, List.filterMap_append, ← failuresOf, ← h.reports]
    cases outcome with
    | ok k => exact (List.append_nil _).symm
    | error e => rfl

/-- An answer changes the window only if it installs a key, and then the rotation is over. -/
theorem Orderly.answer {b : Bucket} {q : Request} {next : q.Answer → Program (Except Error Key)}
    (h : Orderly W restored handed ended m) (hstage : m.stage = .working b (.ask q next)) :
    Orderly W restored handed ended
      { m with window := (q.answer w m.window s).2.1
               stage := if q.isAwaited then .resumed b (next (q.answer w m.window s).1)
                 else .working b (next (q.answer w m.window s).1) } := by
  obtain ⟨hahead, hincreasing, hinTurn, hwindow, hreports⟩ := h
  rw [hstage] at hinTurn hwindow
  obtain ⟨hmay, hmeets⟩ := hwindow
  have hnext := hmeets _ _ (answers_answer w q m.window s)
  cases hq : q.isAwaited with
  | true =>
      -- Only requests that nothing is awaited for install keys.
      have hsame : (q.answer w m.window s).2.1 = m.window := by
        cases q with
        | install key => contradiction
        | _ => rfl
      exact ⟨hahead, hincreasing, hinTurn, ⟨hsame.trans hmay, hnext⟩, hreports⟩
  | false => exact ⟨hahead, hincreasing, hinTurn, hnext, hreports⟩

/-- Every step of the loop leaves it in order. -/
theorem Orderly.step {now : Duration} (h : Orderly W restored handed ended m)
    (hstep : m.Step w s m' s') :
    Orderly W restored (handed ++ (m.notes now m').filterMap Note.handed?)
      (ended ++ (m.notes now m').filterMap Note.ended?) m' := by
  cases hstep with
  | stop hstage =>
      rw [Maintenance.notes_stop hstage, List.filterMap_nil, List.filterMap_nil, List.append_nil,
        List.append_nil]
      exact h.stop hstage
  | hand b hstage hslot hc =>
      have hhanded : [Note.handed now b].filterMap Note.handed? = [b] := rfl
      have hended : [Note.handed now b].filterMap Note.ended? = [] := rfl
      simp only [Maintenance.notes, hstage, hhanded, hended, List.append_nil]
      exact h.hand hstage hslot
  | resume b rest hstage hc =>
      simp only [Maintenance.notes, hstage, List.filterMap_nil, List.append_nil]
      obtain ⟨hahead, hincreasing, hinTurn, hwindow, hreports⟩ := h
      rw [hstage] at hinTurn hwindow
      exact ⟨hahead, hincreasing, hinTurn, hwindow.2, hreports⟩
  | conclude b outcome hstage =>
      have hhanded : [Note.ended now b outcome].filterMap Note.handed? = [] := rfl
      have hended : [Note.ended now b outcome].filterMap Note.ended? = [(b, outcome)] := rfl
      simp only [Maintenance.notes, hstage, hhanded, hended, List.append_nil]
      exact h.conclude hstage
  | answer b q next hstage =>
      simp only [Maintenance.notes, hstage, List.filterMap_nil, List.append_nil]
      exact h.answer hstage

/-! ## The end -/

/-- The loop is over: it has ended, or it was cancelled and waits. -/
def Maintenance.IsOver (m : Maintenance) : Prop :=
  match m.stage with
  | .awaiting => m.cancelled
  | .resumed _ _ => m.cancelled
  | .working _ (.ask q _) => m.cancelled ∧ q.isAwaited
  | .working _ (.done _) => False
  | .stopped => True

/-- A loop that is over stays over. It notes nothing more and leaves its window and its reports. -/
theorem Maintenance.IsOver.step {now : Duration} (h : m.IsOver) (hstep : m.Step w s m' s') :
    m'.IsOver ∧ m'.window = m.window ∧ m'.reports = m.reports ∧ m.notes now m' = [] := by
  cases hstep with
  | stop hstage =>
      exact ⟨trivial, rfl, rfl, notes_stop hstage now⟩
  | hand b hstage hslot hc =>
      rw [IsOver, hstage] at h
      exact absurd h (by simp [hc])
  | resume b rest hstage hc =>
      rw [IsOver, hstage] at h
      exact absurd h (by simp [hc])
  | conclude b outcome hstage =>
      rw [IsOver, hstage] at h
      exact h.elim
  | answer b q next hstage =>
      rw [IsOver, hstage] at h
      obtain ⟨hc, hq⟩ := h
      refine ⟨?_, ?_, rfl, by simp only [notes, hstage]⟩
      · simp only [IsOver, hq, if_true]
        exact hc
      · cases q with
        | install key => contradiction
        | _ => rfl

/-- Cancelling does not bring a loop back. -/
theorem Maintenance.IsOver.cancel (h : m.IsOver) : m.cancel.IsOver := by
  obtain ⟨rotater, ticker, window, reports, stage, cancelled⟩ := m
  cases stage with
  | awaiting => exact rfl
  | resumed b rest => exact rfl
  | working b rest =>
      cases rest with
      | done outcome => exact h
      | ask q next => exact ⟨rfl, h.2⟩
  | stopped => exact trivial

/-! ## Runs -/

namespace Run

variable {c c' : Run σ} {ok : Run σ → Move σ → Run σ → Prop}

/-- Every move leaves the loop in order. -/
theorem orderly_move {m : Move σ} (h : Orderly W restored c.handed c.ended c.loop)
    (hm : c.move w m = some c') : Orderly W restored c'.handed c'.ended c'.loop := by
  cases m with
  | loop =>
      obtain ⟨loop, world, hstep, rfl⟩ := move_loop hm
      rw [handed, ended, List.filterMap_append, List.filterMap_append]
      exact h.step hstep
  | ticker =>
      obtain ⟨ticker, hstep, rfl⟩ := move_ticker hm
      rw [handed_ticker, ended_ticker]
      exact ⟨h.ahead.step hstep, h.increasing, h.inTurn, h.window, h.reports⟩
  | wake =>
      obtain rfl := Option.some.inj hm
      exact ⟨h.ahead.wake, h.increasing, h.inTurn, h.window, h.reports⟩
  | cancel =>
      obtain rfl := Option.some.inj hm
      exact ⟨h.ahead.cancel, h.increasing, h.inTurn, h.window, h.reports⟩
  | outside s =>
      obtain rfl := Option.some.inj hm
      exact h

/-- A loop is in order after every run. -/
theorem orderly_of_reaches {rotater : Rotater}
    (h : Reaches (move w) ok (start rotater W restored s) c) :
    Orderly W restored c.handed c.ended c.loop :=
  h.invariant (P := fun c => Orderly W restored c.handed c.ended c.loop)
    (orderly_start rotater W restored) fun _ _ _ hc hm _ => orderly_move hc hm

/-- Nothing changes any more once the loop is over. -/
structure Rests (c c' : Run σ) : Prop where
  isOver : c'.loop.IsOver
  window : c'.loop.window = c.loop.window
  reports : c'.loop.reports = c.loop.reports
  handed : c'.handed = c.handed
  ended : c'.ended = c.ended

/-- No move changes anything once the loop is over. -/
theorem rests_move {m : Move σ} (h : c.loop.IsOver) (hm : c.move w m = some c') : c.Rests c' := by
  cases m with
  | loop =>
      obtain ⟨loop, world, hstep, rfl⟩ := move_loop hm
      obtain ⟨hover, hwindow, hreports, hnotes⟩ := h.step hstep
      refine ⟨hover, hwindow, hreports, ?_, ?_⟩
      · rw [Run.handed, hnotes, List.append_nil, Run.handed]
      · rw [Run.ended, hnotes, List.append_nil, Run.ended]
  | ticker =>
      obtain ⟨ticker, -, rfl⟩ := move_ticker hm
      exact ⟨h, rfl, rfl, handed_ticker c _ _ _ _, ended_ticker c _ _ _ _⟩
  | wake =>
      obtain rfl := Option.some.inj hm
      exact ⟨h, rfl, rfl, rfl, rfl⟩
  | cancel =>
      obtain rfl := Option.some.inj hm
      exact ⟨h.cancel, rfl, rfl, rfl, rfl⟩
  | outside s =>
      obtain rfl := Option.some.inj hm
      exact ⟨h, rfl, rfl, rfl, rfl⟩

/-- No run changes anything once the loop is over. -/
theorem rests_of_reaches (h : Reaches (move w) ok c c') (hover : c.loop.IsOver) : c.Rests c' := by
  apply h.invariant ⟨hover, rfl, rfl, rfl, rfl⟩
  intro c₁ m c₂ h₁ hm _
  obtain ⟨hover₂, hwindow, hreports, hhanded, hended⟩ := rests_move h₁.isOver hm
  exact ⟨hover₂, hwindow.trans h₁.window, hreports.trans h₁.reports, hhanded.trans h₁.handed,
    hended.trans h₁.ended⟩

/-- The outcomes so far: of the rotations that ended, and of one that the loop is about to take note
of. -/
def outcomes (c : Run σ) : List (Except Error Key) :=
  c.ended.map (·.2) ++ match c.loop.stage with
    | .working _ (.done outcome) => [outcome]
    | _ => []

/-- An outcome that is not noted yet counts already: its key is in the window. -/
theorem window_of_fits
    (h : c.loop.stage.Fits ((c.ended.map (·.2)).foldl KeyWindow.settle W) c.loop.window) :
    c.loop.window = c.outcomes.foldl KeyWindow.settle W := by
  unfold outcomes
  generalize c.loop.stage = stage at h
  cases stage with
  | awaiting => rw [List.append_nil]; exact h
  | resumed b rest => rw [List.append_nil]; exact h.1
  | working b rest =>
      cases rest with
      | done outcome => rw [List.foldl_append]; exact h
      | ask q next => rw [List.append_nil]; exact h.1
  | stopped => rw [List.append_nil]; exact h

/-- What holds of a loop at every moment. -/
structure Upkeep (w : World σ) (W : KeyWindow) (restored : Bucket) (c : Run σ) : Prop where
  /-- It is handed ever later buckets. -/
  increasing : (restored :: c.handed).Pairwise (· < ·)
  /-- It rotates for them in turn, and for one at a time. -/
  inTurn : c.ended.map (·.1) <+: c.handed ∧ c.handed.length ≤ c.ended.length + 1
  /-- The window accepted the keys of the successful rotations in turn. -/
  window : c.loop.window = c.outcomes.foldl KeyWindow.settle W
  size : c.loop.window.size = 1 ∨ c.loop.window.size = 2
  /-- The last key of the window is the current one. -/
  current : ∃ key, c.loop.window.current? = some key ∧ c.loop.window.toList.getLast? = some key
  /-- Each failure was reported once, and nothing else was. -/
  reports : c.loop.reports = failuresOf c.ended
  /-- Once the loop is over, nothing changes any more. -/
  rests : c.loop.IsOver → ∀ c', Reaches (move w) (fun _ _ _ => True) c c' → c.Rests c'

/-- A loop that begins with a window in use is kept up, however it is ticked, answered and
cancelled. -/
theorem upkeep_of_reaches {rotater : Rotater} (hW : W ≠ .empty)
    (h : Reaches (move w) (fun _ _ _ => True) (start rotater W restored s) c) :
    c.Upkeep w W restored := by
  obtain ⟨-, hincreasing, hinTurn, hfits, hreports⟩ := orderly_of_reaches h
  obtain ⟨hended, hlength⟩ := prefix_of_inTurn hinTurn
  rw [List.length_map] at hlength
  have hwindow := window_of_fits hfits
  have hsize := KeyWindow.size_and_current? (KeyWindow.foldl_settle_ne_empty hW c.outcomes)
  rw [← hwindow] at hsize
  exact ⟨hincreasing, ⟨hended, hlength⟩, hwindow, hsize.1, hsize.2, hreports,
    fun hover c' hreach => rests_of_reaches hreach hover⟩

/-- The loop follows a restore in bucket 0. In bucket 1 it rotates, and then it is cancelled. -/
def rotated : List (Move Duration) :=
  [.ticker, .ticker, .outside (.ofSeconds 10), .wake, .ticker, .ticker,
   .loop, .loop, .loop, .loop, .loop, .loop, .loop, .loop, .loop, .cancel, .loop]

/-- The loop that rotated once is kept up: its window holds the first key and the new one. -/
theorem upkeep_rotated : ∃ c : Run Duration,
    c.handed = [.clamp 1] ∧ c.loop.window = .two .small55 .small85 ∧
      c.Upkeep (clockWorld (.ok .small85)) (.one .small55) .zero := by
  have hrun : ((play (move (clockWorld (.ok .small85))) (fun _ _ _ => True) rotated
      (start brisk (.one .small55) .zero .zero)).any fun c =>
        c.handed = [.clamp 1] ∧ c.loop.window = .two .small55 .small85 ∧
        c.loop.isStopped) = true := by
    decide +kernel
  simp only [Option.any_eq_true, decide_eq_true_eq] at hrun
  obtain ⟨c, hc, hhanded, hwindow, -⟩ := hrun
  exact ⟨c, hhanded, hwindow, upkeep_of_reaches (by decide) (Reaches.refl.play hc)⟩

end Run

end Keyring.Rotation
