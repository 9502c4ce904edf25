import Keyring.Proofs.Key
import Keyring.Proofs.Rotation.Loop

/-! # How late buckets are handed over

The ticker works ahead of the loop. While a rotation is under way it takes up the next bucket, and
the one after that as soon as the slot is full, and it holds on to what it took up. So a bucket was
current when the ticker read the clock, but the loop is handed it only when the rotations in between
have ended, and by then it may be long over.
-/

namespace Keyring.Rotation

variable {σ : Type} {w : World σ} {interval now : Duration} {b : Bucket} {t t' : Ticker}

/-- The time of a note. -/
def Note.time : Note → Duration
  | read now _ => now
  | handed now _ => now
  | ended now _ _ => now

/-! ## Waiting -/

/-- The loop waits for a tick or for an answer from outside, or it has ended. -/
def Maintenance.waits (m : Maintenance) : Bool :=
  match m.stage with
  | .awaiting => !m.cancelled && m.ticker.receive.isNone
  | .resumed _ _ => false
  | .working _ (.ask q _) => q.isAwaited
  | .working _ (.done _) => false
  | .stopped => true

/-- The ticker waits for room in the slot or for the end of its sleep, or it has ended. -/
def tickerWaits (t : Ticker) : Bool :=
  match t.stage with
  | .checking => false
  | .offering _ => !t.cancelled && t.slot.isSome
  | .resting => false
  | .sleeping _ => !t.cancelled
  | .stopped => true

/-- The clock never goes backwards, and it shows another time only when loop and ticker both wait:
they take no time for their own steps. -/
def Run.Prompt (w : World σ) (c c' : Run σ) : Prop :=
  w.time c.world ≤ w.time c'.world ∧
    (w.time c'.world = w.time c.world ∨ c.loop.waits ∧ tickerWaits c.loop.ticker)

instance (w : World σ) (c c' : Run σ) : Decidable (c.Prompt w c') :=
  inferInstanceAs (Decidable (_ ∧ _))

/-! ## Pending buckets -/

/-- The ticker took up the bucket, and the loop was not handed it yet. -/
def Pending (t : Ticker) (b : Bucket) : Prop :=
  t.slot = some b ∨ t.stage = .offering b

/-- A bucket that becomes pending is the one of the clock, and that is noted. -/
theorem Pending.of_step (hstep : t.Step now t') (h : Pending t' b) :
    Pending t b ∨ notesOfTicker now t t' = [.read now b] ∧
      Bucket.containing now t.interval = b := by
  cases hstep with
  | take b' hstage hb hlt =>
      rcases h with h | h
      · exact .inl (.inl h)
      · obtain rfl := Ticker.Stage.offering.inj h
        exact .inr ⟨by simp only [notesOfTicker, hstage], hb⟩
  | report b' hstage hc hslot =>
      rcases h with h | h
      · obtain rfl := Option.some.inj h
        exact .inl (.inr hstage)
      · contradiction
  | pass | sleep | stop =>
      rcases h with h | h
      · exact .inl (.inl h)
      · contradiction

theorem Pending.of_wake (h : Pending t.wake b) : Pending t b := by
  unfold Ticker.wake at h
  split at h
  · rcases h with h | h
    · exact .inl h
    · simp only at h
      split at h <;> contradiction
  · exact h

/-- While a bucket is pending and the loop could take one, loop and ticker do not both wait. -/
theorem Pending.not_waits {m : Maintenance} (h : Pending m.ticker b)
    (hstage : m.stage = .awaiting) : ¬ (m.waits ∧ tickerWaits m.ticker) := by
  rintro ⟨hloop, hticker⟩
  rw [Maintenance.waits, hstage, Bool.and_eq_true, Ticker.receive] at hloop
  cases hslot : m.ticker.slot with
  | some b' =>
      rw [hslot] at hloop
      exact absurd hloop.2 (by simp)
  | none =>
      rcases h with h | h
      · rw [hslot] at h
        contradiction
      · rw [tickerWaits, h, hslot] at hticker
        simp at hticker

/-! ## Punctuality -/

/-- The bucket was current when the ticker took it up, and if the loop can be handed it, then the
clock still shows that time or the time at which a rotation ended since. -/
def TakenUp (w : World σ) (interval : Duration) (c : Run σ) (b : Bucket) : Prop :=
  ∃ p t₀ q, c.trace = p ++ .read t₀ b :: q ∧ Bucket.containing t₀ interval = b ∧
    (c.loop.stage = .awaiting →
      w.time c.world = t₀ ∨ ∃ b' outcome, Note.ended (w.time c.world) b' outcome ∈ q)

/-- What is known of a bucket that was handed over after some notes: the ticker took it up when it
was current, and it is still the clock's bucket or the one before exactly if no rotation has ended
since in a bucket later than the next. -/
def HandedOver (interval : Duration) (pre : List Note) (t : Duration) (b : Bucket) : Prop :=
  ∃ p t₀ q, pre = p ++ .read t₀ b :: q ∧ Bucket.containing t₀ interval = b ∧ t₀ ≤ t ∧
    (b.Covers interval t ↔
      ∀ t' b' outcome, Note.ended t' b' outcome ∈ q → Bucket.containing t' interval ≤ b.next)

variable {c c' : Run σ}

/-- The invariant of a run whose clock is prompt. -/
structure Punctual (w : World σ) (interval : Duration) (c : Run σ) : Prop where
  interval_eq : c.loop.ticker.interval = interval
  past : ∀ n ∈ c.trace, n.time ≤ w.time c.world
  pending : ∀ b, Pending c.loop.ticker b → TakenUp w interval c b
  handed : ∀ pre t b, pre ++ [.handed t b] <+: c.trace → HandedOver interval pre t b

/-- A bucket stays taken up while the run goes on. -/
theorem TakenUp.move (h : TakenUp w interval c b) {notes : List Note}
    (htrace : c'.trace = c.trace ++ notes)
    (hnow : c'.loop.stage = .awaiting →
      (c.loop.stage = .awaiting ∧ w.time c'.world = w.time c.world) ∨
        ∃ b' outcome, Note.ended (w.time c'.world) b' outcome ∈ notes) :
    TakenUp w interval c' b := by
  obtain ⟨p, t₀, q, htrace₀, hb, hnow₀⟩ := h
  refine ⟨p, t₀, q ++ notes, by rw [htrace, htrace₀]; simp, hb, fun hstage => ?_⟩
  -- Either the loop waited already and the clock stands still, or a rotation ends with this move.
  rcases hnow hstage with ⟨hstage₀, htime⟩ | ⟨b', outcome, hended⟩
  · rw [htime]
    rcases hnow₀ hstage₀ with hnow₀ | ⟨b', outcome, hended⟩
    · exact .inl hnow₀
    · exact .inr ⟨b', outcome, List.mem_append_left _ hended⟩
  · exact .inr ⟨b', outcome, List.mem_append_right _ hended⟩

/-- A bucket that is handed over now is fresh exactly if no rotation ended too late since it was
read. -/
theorem TakenUp.handedOver (h : TakenUp w interval c b)
    (hpast : ∀ n ∈ c.trace, n.time ≤ w.time c.world) (hstage : c.loop.stage = .awaiting) :
    HandedOver interval c.trace (w.time c.world) b := by
  obtain ⟨p, t₀, q, htrace, hb, hnow⟩ := h
  have hread : t₀ ≤ w.time c.world := by
    apply hpast (.read t₀ b)
    rw [htrace]
    exact List.mem_append_right _ List.mem_cons_self
  have hended : ∀ t' b' outcome, Note.ended t' b' outcome ∈ q → t' ≤ w.time c.world := by
    intro t' b' outcome hmem
    apply hpast (.ended t' b' outcome)
    rw [htrace]
    exact List.mem_append_right _ (List.mem_cons_of_mem _ hmem)
  have hle : b ≤ Bucket.containing (w.time c.world) interval := by
    have hmono := Bucket.containing_mono hread interval
    rw [hb] at hmono
    exact hmono
  refine ⟨p, t₀, q, htrace, hb, hread, ?_⟩
  rw [Bucket.covers_iff_le_next hle]
  constructor
  · exact fun hfresh t' b' outcome hmem =>
      le_trans (Bucket.containing_mono (hended t' b' outcome hmem) interval) hfresh
  · intro hall
    -- The clock shows the time of the reading or that of the last rotation's end.
    rcases hnow hstage with hnow | ⟨b', outcome, hmem⟩
    · rw [hnow, hb]
      exact Bucket.le_next b
    · exact hall _ b' outcome hmem

/-- What a move has to establish: it notes at most one thing, with the time of the clock, and if
that is a bucket that is handed over, then what is to be known of it. -/
theorem Punctual.of_notes {notes : List Note} (h : Punctual w interval c)
    (hle : w.time c.world ≤ w.time c'.world) (htrace : c'.trace = c.trace ++ notes)
    (hinterval : c'.loop.ticker.interval = c.loop.ticker.interval)
    (hnotes : notes = [] ∨ ∃ n, notes = [n] ∧ n.time = w.time c.world ∧
      ∀ t b, n = .handed t b → HandedOver interval c.trace t b)
    (hpending : ∀ b, Pending c'.loop.ticker b → TakenUp w interval c' b) :
      Punctual w interval c' := by
  refine ⟨hinterval.trans h.interval_eq, fun n hn => ?_, hpending, fun pre t b hpre => ?_⟩
  · rw [htrace, List.mem_append] at hn
    rcases hn with hn | hn
    · exact le_trans (h.past n hn) hle
    · rcases hnotes with rfl | ⟨n', rfl, htime, -⟩
      · contradiction
      · obtain rfl := List.mem_singleton.mp hn
        rw [htime]
        exact hle
  · rw [htrace] at hpre
    rcases hnotes with rfl | ⟨n, rfl, -, hhanded⟩
    · rw [List.append_nil] at hpre
      exact h.handed pre t b hpre
    · rcases List.prefix_concat_iff.mp hpre with heq | hpre
      · obtain ⟨rfl, hn⟩ := List.append_inj' heq rfl
        exact hhanded t b (List.cons.inj hn).1.symm
      · exact h.handed pre t b hpre

/-- Every step of the loop leaves a run punctual. -/
theorem Punctual.step {loop : Maintenance} {s : σ} (h : Punctual w interval c)
    (hstep : c.loop.Step w c.world loop s) (hle : w.time c.world ≤ w.time s) :
    Punctual w interval ⟨loop, s, c.trace ++ c.loop.notes (w.time c.world) loop⟩ := by
  cases hstep with
  | stop hstage =>
      refine h.of_notes hle rfl rfl (.inl (Maintenance.notes_stop hstage _)) fun b hb => ?_
      exact (h.pending b hb).move rfl fun hawaiting => by contradiction
  | hand b hstage hslot hc =>
      refine h.of_notes hle rfl rfl (.inr ⟨.handed (w.time c.world) b, ?_, rfl, ?_⟩)
        fun b' hb' => ?_
      · simp only [Maintenance.notes, hstage]
      · intro t b' hnote
        obtain ⟨rfl, rfl⟩ := Note.handed.inj hnote
        exact (h.pending b (.inl hslot)).handedOver h.past hstage
      · have hpending : Pending c.loop.ticker b' := hb'.elim (fun hnone => by contradiction) .inr
        exact (h.pending b' hpending).move rfl fun hawaiting => by contradiction
  | resume b rest hstage hc =>
      refine h.of_notes hle rfl rfl (.inl (by simp only [Maintenance.notes, hstage]))
        fun b' hb' => ?_
      exact (h.pending b' hb').move rfl fun hawaiting => by contradiction
  | conclude b outcome hstage =>
      have hnotes : c.loop.notes (w.time c.world) (c.loop.conclude outcome) =
          [.ended (w.time c.world) b outcome] := by
        simp only [Maintenance.notes, hstage]
      refine h.of_notes hle rfl rfl (.inr ⟨_, hnotes, rfl, fun t b' hnote => ?_⟩) fun b' hb' => ?_
      · contradiction
      · refine (h.pending b' hb').move rfl fun _ => .inr ⟨b, outcome, ?_⟩
        rw [hnotes]
        exact List.mem_singleton_self _
  | answer b q next hstage =>
      refine h.of_notes hle rfl rfl (.inl (by simp only [Maintenance.notes, hstage]))
        fun b' hb' => ?_
      refine (h.pending b' hb').move rfl fun hawaiting => ?_
      simp only at hawaiting
      split at hawaiting <;> contradiction

/-- Every prompt move leaves a run punctual. -/
theorem Punctual.move {m : Run.Move σ} (h : Punctual w interval c) (hm : c.move w m = some c')
    (hok : c.Prompt w c') : Punctual w interval c' := by
  cases m with
  | loop =>
      obtain ⟨loop, world, hstep, rfl⟩ := Run.move_loop hm
      exact h.step hstep hok.1
  | ticker =>
      obtain ⟨ticker, hstep, rfl⟩ := Run.move_ticker hm
      refine h.of_notes hok.1 rfl (hstep.interval_eq) ?_ fun b hb => ?_
      · rcases notesOfTicker_cases (w.time c.world) c.loop.ticker ticker with hnotes | ⟨b, hnotes⟩
        · exact .inl hnotes
        · exact .inr ⟨_, hnotes, rfl, fun t b' hnote => by contradiction⟩
      · -- A bucket that was not pending before is the one that the ticker has just read.
        rcases hb.of_step hstep with hb | ⟨hread, hb⟩
        · exact (h.pending b hb).move rfl fun hawaiting => .inl ⟨hawaiting, rfl⟩
        · rw [h.interval_eq] at hb
          exact ⟨c.trace, w.time c.world, [], by rw [hread], hb, fun _ => .inl rfl⟩
  | wake =>
      obtain rfl := Option.some.inj hm
      have hinterval : c.loop.ticker.wake.interval = c.loop.ticker.interval := by
        unfold Ticker.wake
        split <;> rfl
      refine h.of_notes hok.1 (List.append_nil _).symm hinterval (.inl rfl) fun b hb => ?_
      exact (h.pending b hb.of_wake).move (List.append_nil _).symm fun hawaiting => .inl
        ⟨hawaiting, rfl⟩
  | cancel =>
      obtain rfl := Option.some.inj hm
      refine h.of_notes hok.1 (List.append_nil _).symm rfl (.inl rfl) fun b hb => ?_
      exact (h.pending b hb).move (List.append_nil _).symm fun hawaiting => .inl ⟨hawaiting, rfl⟩
  | outside s =>
      obtain rfl := Option.some.inj hm
      refine h.of_notes hok.1 (List.append_nil _).symm rfl (.inl rfl) fun b hb => ?_
      -- Time may not pass here: the loop could be handed the pending bucket.
      refine (h.pending b hb).move (List.append_nil _).symm fun hawaiting => .inl ⟨hawaiting, ?_⟩
      exact hok.2.resolve_right (Pending.not_waits hb hawaiting)

/-- A loop that just started is punctual. -/
theorem punctual_start (w : World σ) (rotater : Rotater) (window : KeyWindow) (restored : Bucket)
    (s : σ) : Punctual w rotater.interval (.start rotater window restored s) where
  interval_eq := rfl
  past n hn := by contradiction
  pending b hb := by
    rcases hb with hb | hb <;> contradiction
  handed pre t b hpre := by
    rw [Run.start, List.prefix_nil] at hpre
    exact absurd hpre (by simp)

/-- Whatever the loop is handed was current when the ticker took it up. It is still the clock's
bucket or the one before exactly if no rotation has ended since in a bucket later than the next. -/
theorem fresh_iff {rotater : Rotater} {window : KeyWindow} {restored : Bucket} {s : σ}
    (h : Reaches (Run.move w) (fun c _ c' => c.Prompt w c') (.start rotater window restored s) c)
    {pre : List Note} {t : Duration} (hpre : pre ++ [.handed t b] <+: c.trace) :
    HandedOver rotater.interval pre t b := by
  have hpunctual : Punctual w rotater.interval c :=
    h.invariant (punctual_start w rotater window restored s) fun _ _ _ hc hm hok => hc.move hm hok
  exact hpunctual.handed pre t b hpre

/-- A rotation for bucket 1 stalls until the middle of bucket 5. Meanwhile the ticker takes up
buckets 2 and 3, and when the rotation has failed, the loop is handed bucket 2. -/
def stalled : List (Run.Move Duration) :=
  [.ticker, .ticker, .outside (.ofSeconds 10), .wake, .ticker, .ticker, .ticker, .loop, .loop,
   .outside (.ofSeconds 20), .wake, .ticker, .ticker, .ticker,
   .outside (.ofSeconds 30), .wake, .ticker,
   .outside (.ofSeconds 55), .loop, .loop, .loop, .loop]

/-- What is noted of the stalled rotation. -/
def stalledTrace : List Note :=
  [.read (.ofSeconds 10) (.clamp 1), .handed (.ofSeconds 10) (.clamp 1),
   .read (.ofSeconds 20) (.clamp 2), .read (.ofSeconds 30) (.clamp 3),
   .ended (.ofSeconds 55) (.clamp 1) (.error (.plain .keyGeneration "entropy exhausted")),
   .handed (.ofSeconds 55) (.clamp 2)]

/-- The loop stalls in a world where no key can be generated. -/
def stalledWorld : World Duration := clockWorld (.error (.plain .keyGeneration "entropy exhausted"))

/-- A run whose rotation hangs while two buckets pass. -/
theorem exists_stalled : ∃ c,
    play (Run.move stalledWorld) (fun c _ c' => c.Prompt stalledWorld c') stalled
    (.start brisk (.one .small55) .zero .zero) = some c ∧ c.trace = stalledTrace := by
  have hrun : (play (Run.move stalledWorld) (fun c _ c' => c.Prompt stalledWorld c') stalled
      (.start brisk (.one .small55) .zero .zero)).map (·.trace) = some stalledTrace := by
    decide
  exact Option.map_eq_some_iff.mp hrun

/-- What is known of the first bucket that is handed over in the stalled run. -/
theorem handedOver_stalled : ∃ c : Run Duration,
    [.read (.ofSeconds 10) (.clamp 1)] ++ [.handed (.ofSeconds 10) (.clamp 1)] <+: c.trace ∧
      HandedOver brisk.interval [.read (.ofSeconds 10) (.clamp 1)] (.ofSeconds 10) (.clamp 1) := by
  obtain ⟨c, hc, htrace⟩ := exists_stalled
  have hpre :
      [.read (.ofSeconds 10) (.clamp 1)] ++ [.handed (.ofSeconds 10) (.clamp 1)] <+: c.trace := by
    rw [htrace]
    exact ⟨_, rfl⟩
  exact ⟨c, hpre, fresh_iff (Reaches.refl.play hc) hpre⟩

/-- In the middle of bucket 5 the loop is handed bucket 2, which is neither current nor the one
before. -/
theorem stale_stalled : ∃ c,
    play (Run.move stalledWorld) (fun c _ c' => c.Prompt stalledWorld c') stalled
      (.start brisk (.one .small55) .zero .zero) = some c ∧
    .handed (.ofSeconds 55) (.clamp 2) ∈ c.trace ∧
    Bucket.containing (.ofSeconds 55) brisk.interval = .clamp 5 ∧
    ¬ (Bucket.clamp 2).Covers brisk.interval (.ofSeconds 55) := by
  obtain ⟨c, hc, htrace⟩ := exists_stalled
  refine ⟨c, hc, ?_, by decide, by decide⟩
  rw [htrace]
  decide

end Keyring.Rotation
