import Keyring.Proofs.Rotation.Errands

/-! # Agreement among peers

If every call on the store comes in time, then in every order of events the peers come to use one
key for a bucket: one creation is accepted, and whatever anyone finds, generates or installs for the
bucket is the key that it created. Neither lost answers nor processes that stop halfway can break
this.
-/

namespace Keyring.Rotation

open Store

variable {ι : Type} {interval now : Duration} {e : Errand} {s s' : Shared} {o : Own}

/-! ## Soundness -/

/-- The current key has the name of the key that is stored for the settled bucket. -/
def Own.Settled (s : Shared) (o : Own) : Prop :=
  ∀ b ∈ o.settled, ∃ k c, s.Stores b k ∧ o.window.current? = some c ∧ c.same k

/-- Every installed key is stored for a bucket that the errand is about. -/
def Own.Justified (s : Shared) (e : Errand) (o : Own) : Prop :=
  ∀ k ∈ o.installs, ∃ b, e.Wants o.told b ∧ s.Stores b k

/-- What holds of an errand under way. -/
structure Task.Sound (interval : Duration) (g : View) (t : Task) : Prop where
  meets : t.rest.Meets (t.errand.rules interval) (t.errand.Promises t.before) g
  justified : g.2.Justified g.1 t.errand
  settled : t.before.2.Settled t.before.1
  since : t.before.1.Grows g.1

/-- What holds of an errand that has ended. -/
structure Deed.Sound (s : Shared) (d : Deed ι) : Prop where
  promise : d.errand.Promises d.before d.outcome (s, d.after)
  justified : d.after.Justified s d.errand
  settled : d.before.2.Settled d.before.1
  since : d.before.1.Grows s

/-- What holds of a process. -/
structure Process.Sound (interval : Duration) (s : Shared) (x : Process) : Prop where
  settled : x.own.Settled s
  task : ∀ t ∈ x.task, t.Sound interval (s, x.own)

/-- The invariant of peers. -/
structure Peers.Sound (interval : Duration) (p : Peers ι) : Prop where
  kept : p.shared.Kept interval
  process : ∀ i, (p.process i).Sound interval p.shared
  journal : ∀ d ∈ p.journal, d.Sound p.shared

/-! ## What others do

A process that adds to the store takes nothing from what holds of the others. -/

/-- What a window settled on stays stored. -/
theorem Own.Settled.grows (h : o.Settled s) (hgrows : s.Grows s') : o.Settled s' := by
  intro b hb
  obtain ⟨k, c, hk, hc⟩ := h b hb
  exact ⟨k, c, hk.grows hgrows, hc⟩

/-- An outcome stays justified when more is stored. -/
theorem Own.Justified.grows (h : o.Justified s e) (hgrows : s.Grows s') : o.Justified s' e := by
  intro k hk
  obtain ⟨b, hb, hstores⟩ := h k hk
  exact ⟨b, hb, hstores.grows hgrows⟩

/-- What an errand may ask for, it may ask for when more is stored. -/
theorem Errand.May.grows {q : Request} (h : e.May interval (s, o) q) (hgrows : s.Grows s') :
    e.May interval (s', o) q := by
  cases q with
  | install k =>
      obtain ⟨b, hb, hstores⟩ := h
      exact ⟨b, hb, hstores.grows hgrows⟩
  | store c => cases c <;> exact h
  | time => exact h
  | generate bits => exact h
  | current => exact h

/-- A task stays sound when more is stored. -/
theorem Task.Sound.grows {t : Task} (h : t.Sound interval (s, o)) (hgrows : s.Grows s') :
    t.Sound interval (s', o) where
  meets := by
    refine h.meets.grow (fun q hq => Errand.May.grows hq hgrows) ?_ (fun a ha => ha.grows hgrows)
    rintro q a g' ⟨t, s'', reply, hkept, hgrows', ha⟩
    exact ⟨t, s'', reply, hkept, hgrows.trans hgrows', ha⟩
  justified := h.justified.grows hgrows
  settled := h.settled
  since := h.since.trans hgrows

/-- An errand that has ended stays sound when more is stored. -/
theorem Deed.Sound.grows {d : Deed ι} (h : d.Sound s) (hgrows : s.Grows s') : d.Sound s' where
  promise := h.promise.grows hgrows
  justified := h.justified.grows hgrows
  settled := h.settled
  since := h.since.trans hgrows

/-- A process stays sound when others store more. -/
theorem Process.Sound.grows {x : Process} (h : x.Sound interval s) (hgrows : s.Grows s') :
    x.Sound interval s' where
  settled := h.settled.grows hgrows
  task t ht := (h.task t ht).grows hgrows

/-! ## What a process does -/

/-- A call that an errand may make leaves the store in order. -/
theorem Errand.May.call {c : Call} (hmay : e.May interval (s, o) (.store c))
    (hkept : s.Kept interval) (htime : InTime interval now c) :
    (s.after now c).Kept interval ∧ s.Grows (s.after now c) := by
  cases c with
  | read name => exact ⟨hkept, Shared.Grows.refl s⟩
  | create name blob ttl =>
      obtain ⟨⟨b, rfl⟩, ⟨k, hk⟩, rfl⟩ := hmay
      have hcovers := (timely_iff rfl).mp htime.1
      exact ⟨hkept.create hcovers htime.2 hk, hkept.grows_create hcovers htime.2 _ _⟩
  | write name blob ttl => exact hmay.elim

/-- An answer leaves the store in order and every installed key justified. -/
theorem Errand.May.answer {q : Request} {a : q.Answer} {g' : View} {reply : Reply}
    (hmay : e.May interval (s, o) q) (hkept : s.Kept interval)
    (htime : ∀ c, q = .store c → InTime interval now c) (hjust : o.Justified s e)
    (hset : o.Settled s) (ha : reply.answer? interval now q (s, o) = some (a, g')) :
    g'.1.Kept interval ∧ s.Grows g'.1 ∧ g'.2.Justified g'.1 e ∧ g'.2.Settled g'.1 := by
  have hrefl := Shared.Grows.refl s
  cases q with
  | time =>
      obtain ⟨-, rfl⟩ := Reply.answered_time ha
      -- The clock is asked before anything is installed.
      have hnil : o.installs = [] := hmay
      refine ⟨hkept, hrefl, fun k hk => ?_, hset⟩
      rw [show ({ o with told := _ } : Own).installs = o.installs from rfl, hnil] at hk
      exact absurd hk List.not_mem_nil
  | store c =>
      have hcall := Errand.May.call hmay hkept (htime c rfl)
      rcases Reply.answered_store ha with ⟨-, rfl⟩ | ⟨err, s', -, rfl, rfl | rfl⟩
      · exact ⟨hcall.1, hcall.2, hjust.grows hcall.2, hset.grows hcall.2⟩
      · exact ⟨hkept, hrefl, hjust, hset⟩
      · exact ⟨hcall.1, hcall.2, hjust.grows hcall.2, hset.grows hcall.2⟩
  | generate bits =>
      rcases Reply.answered_generate ha with ⟨k, -, rfl⟩ | ⟨err, -, rfl⟩
      · exact ⟨hkept, hrefl, hjust, hset⟩
      · exact ⟨hkept, hrefl, hjust, hset⟩
  | current =>
      obtain ⟨-, rfl⟩ := Reply.answered_current ha
      exact ⟨hkept, hrefl, hjust, hset⟩
  | install key =>
      obtain rfl := Reply.answered_install ha
      refine ⟨hkept, hrefl, fun k hk => ?_, fun b hb => by contradiction⟩
      rcases List.mem_append.mp hk with hk | hk
      · exact hjust k hk
      · obtain rfl := List.mem_singleton.mp hk
        exact hmay

/-- An errand that came out well leaves its bucket settled. -/
theorem Errand.Promises.settled {before : View} {outcome : Outcome}
    (h : e.Promises before outcome (s, o)) (hset : o.Settled s) :
    ({ o with settled := (e.settled outcome).or o.settled } : Own).Settled s := by
  intro b hb
  cases hs : e.settled outcome with
  | none =>
      rw [hs] at hb
      exact hset b hb
  | some b' =>
      rw [hs] at hb
      obtain rfl := Option.some.inj hb
      cases e <;> rcases outcome with (_ | _) | (_ | _) | (_ | _) | (_ | _) <;>
        simp only [Errand.settled, Option.some.injEq, reduceCtorEq] at hs
      · subst hs
        obtain ⟨k, hk, ⟨k', -, hwindow⟩ | ⟨-, hwindow⟩⟩ := h
        · exact ⟨k, k, hk, by rw [hwindow, KeyWindow.current?_rotate], Key.same_iff.mpr rfl⟩
        · exact ⟨k, k, hk, by rw [hwindow, KeyWindow.current?_rotate], Key.same_iff.mpr rfl⟩
      · subst hs
        obtain ⟨hk, hwindow⟩ := h
        obtain ⟨c, hc, hsame⟩ := KeyWindow.current?_accept before.2.window _
        exact ⟨_, c, hk, by rw [hwindow, hc], hsame⟩

namespace Peers

/-- At the start nothing is stored and nobody holds a key. -/
theorem sound_start (interval now : Duration) : Sound interval ({ now } : Peers ι) where
  kept := Shared.kept_empty interval
  process _ := ⟨fun _ hb => by contradiction, fun _ ht => by contradiction⟩
  journal _ hd := by contradiction

variable [DecidableEq ι] {r : ι → Rotater} {p p' : Peers ι} {m : Move ι}

/-- The soundness of one process is that of all when the others only see the store grow. -/
theorem Sound.setProcess {i : ι} {x : Process} (h : p.Sound interval) (hgrows : p.shared.Grows s)
    (hx : x.Sound interval s) (j : ι) : ((p.setProcess i x).process j).Sound interval s := by
  show (Function.update p.process i x j).Sound interval s
  by_cases hj : j = i
  · subst hj
    rw [Function.update_self]
    exact hx
  · rw [Function.update_of_ne hj]
    exact (h.process j).grows hgrows

/-- A process that sets out may go by the rules of its errand. -/
theorem Sound.begin {i : ι} (h : p.Sound interval) (hr : (r i).interval = interval)
    (hi : p.process i = ⟨o, none⟩) (e : Errand) :
    (p.setProcess i
      ⟨o.fresh, some ⟨e, e.program (r i), p.now, (p.shared, o.fresh)⟩⟩).Sound interval := by
  have hrefl := Shared.Grows.refl p.shared
  have hset : o.fresh.Settled p.shared := by
    have hsound := (h.process i).settled
    rw [hi] at hsound
    exact hsound
  refine ⟨h.kept, h.setProcess hrefl ⟨hset, ?_⟩, h.journal⟩
  intro t ht
  obtain rfl := Option.some.inj ht
  exact ⟨e.meets_program hr rfl, fun k hk => absurd hk List.not_mem_nil, hset, hrefl⟩

/-- What was promised of an errand goes into the journal. -/
theorem Sound.conclude {i : ι} {outcome : Outcome} {began : Duration} {before : View}
    (h : p.Sound interval) (hi : p.process i = ⟨o, some ⟨e, .done outcome, began, before⟩⟩) :
    Sound interval
      { p.setProcess i ⟨{ o with settled := (e.settled outcome).or o.settled }, none⟩ with
        journal := p.journal ++ [⟨i, e, outcome, began, before, o⟩] } := by
  have hsound := h.process i
  rw [hi] at hsound
  obtain ⟨hpromise, hjust, hbefore, hsince⟩ := hsound.task _ rfl
  refine ⟨h.kept, h.setProcess (Shared.Grows.refl p.shared) ⟨hpromise.settled hsound.settled, ?_⟩,
    ?_⟩
  · intro t ht
    contradiction
  · intro d hd
    rcases List.mem_append.mp hd with hd | hd
    · exact h.journal d hd
    · obtain rfl := List.mem_singleton.mp hd
      exact ⟨hpromise, hjust, hbefore, hsince⟩

/-- An answer that obeys the rules leaves a process to the rest of its errand, and the others with a
store that has only grown. -/
theorem Sound.answer {i : ι} {q : Request} {next : q.Answer → Program Outcome} {began : Duration}
    {before : View} {reply : Reply} {a : q.Answer} {o' : Own} (h : p.Sound interval)
    (hi : p.process i = ⟨o, some ⟨e, .ask q next, began, before⟩⟩)
    (htime : ∀ c, q = .store c → InTime interval p.now c)
    (ha : reply.answer? interval p.now q (p.shared, o) = some (a, s', o')) :
    Sound interval { p.setProcess i ⟨o', some ⟨e, next a, began, before⟩⟩ with shared := s' } := by
  have hsound := h.process i
  rw [hi] at hsound
  obtain ⟨hmeets, hjust, hbefore, hsince⟩ := hsound.task _ rfl
  obtain ⟨hkept, hgrows, hjust', hset'⟩ :=
    Errand.May.answer hmeets.1 h.kept htime hjust hsound.settled ha
  refine ⟨hkept, h.setProcess hgrows ⟨hset', ?_⟩, fun d hd => (h.journal d hd).grows hgrows⟩
  intro t ht
  obtain rfl := Option.some.inj ht
  have hrest := hmeets.2 a (s', o') ⟨p.now, p.shared, reply, h.kept, Shared.Grows.refl _, htime, ha⟩
  exact ⟨hrest, hjust', hbefore, hsince.trans hgrows⟩

/-- Every move leaves the peers sound. -/
theorem Sound.move (h : p.Sound interval) (hr : ∀ i, (r i).interval = interval)
    (hok : p.Heeds (InTime interval) m) (hm : p.move r m = some p') : p'.Sound interval := by
  cases m with
  | clock now =>
      obtain rfl := Option.some.inj hm
      exact ⟨h.kept, h.process, h.journal⟩
  | begin i e =>
      simp only [Peers.move] at hm
      split at hm
      · next o hi =>
          obtain rfl := Option.some.inj hm
          exact h.begin (hr i) hi e
      · contradiction
  | answer i reply =>
      simp only [Peers.move] at hm
      split at hm
      · next o e q next began before hi =>
          split at hm
          · next a s' o' ha =>
              obtain rfl := Option.some.inj hm
              rw [hr i] at ha
              refine h.answer hi ?_ ha
              rintro c rfl
              exact hok c (by rw [pending?, hi]; rfl)
          · contradiction
      · contradiction
  | conclude i =>
      simp only [Peers.move] at hm
      split at hm
      · next o e outcome began before hi =>
          obtain rfl := Option.some.inj hm
          exact h.conclude hi
      · contradiction
  | abandon i =>
      obtain rfl := Option.some.inj hm
      refine ⟨h.kept, h.setProcess (Shared.Grows.refl p.shared) ⟨(h.process i).settled, ?_⟩,
        h.journal⟩
      intro t ht
      contradiction

/-- Every reachable state is sound, by induction on the moves. -/
theorem Reachable.sound (hr : ∀ i, (r i).interval = interval)
    (h : Reachable r (InTime interval) p) : p.Sound interval := by
  obtain ⟨now, h⟩ := h
  exact h.invariant (sound_start interval now) fun _ _ _ hp hm hok => hp.move hr hok hm

/-! ## Agreement -/

/-- A rotater with buckets of an hour. -/
def hourly : Rotater := ⟨.ofSeconds 3600, Key.minBits, by decide, Nat.le_refl Key.minBits⟩

/-- Two peers race for a bucket. The first one's creation takes effect but its answer is lost; the
second one loses and adopts the first one's key. -/
def race : List (Move Bool) :=
  [.begin false (.generateFor (.clamp 10)), .begin true (.generateFor (.clamp 10)),
   .answer false (.generated (.ok .small55)), .answer true (.generated (.ok .small85)),
   .answer false (.lost (.plain .storage "connection reset")), .answer true .served,
   .answer true .served, .conclude true, .conclude false]

end Peers

end Keyring.Rotation
