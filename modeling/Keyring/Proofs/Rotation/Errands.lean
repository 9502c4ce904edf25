import Keyring.Proofs.KeyWindow
import Keyring.Proofs.Rotation.Contract
import Keyring.Proofs.Rotation.Custody

/-! # What errands promise

On a store in order, an errand asks for nothing that could bring it out of order, installs only keys
that are stored for the buckets it is about, and ends with stored keys or in a failure that the
world answered it with. The programs are gone through once, from the inner ones to the outer ones.
-/

namespace Keyring.Rotation

open Store

variable {interval : Duration} {e : Errand} {b : Bucket} {g g' : View}

/-! ## Rules -/

namespace Errand

/-- The buckets whose keys an errand may install, once the clock was read. -/
def Wants (told : Option Bucket) (b : Bucket) : Errand → Prop
  | .restore => ∃ t ∈ told, b = t ∨ b = t.previous
  | .rotate target => b = target
  | _ => False

/-- What an errand may ask for. -/
def May (interval : Duration) (e : Errand) (g : View) : Request → Prop
  | .time => g.2.installs = []
  | .store (.read name) => ∃ b : Bucket, name = b.blobName
  | .store (.create name blob ttl) =>
    (∃ b : Bucket, name = b.blobName) ∧ (∃ k : Key, k.toPem = .ok blob) ∧
      ttl = Bucket.blobTtl interval
  | .store (.write _ _ _) => False
  | .generate _ => True
  | .current => True
  | .install k => ∃ b, e.Wants g.2.told b ∧ g.1.Stores b k

/-- The rules among peers: before the answer comes, the others may have added to the store. -/
def rules (interval : Duration) (e : Errand) : Rules View where
  may g q := e.May interval g q
  answers g q a g' := ∃ now s reply, s.Kept interval ∧ g.1.Grows s ∧
    (∀ c, q = .store c → InTime interval now c) ∧
    Reply.answer? interval now q reply (s, g.2) = some (a, g')

end Errand

/-- Nothing but failures was added to the record. -/
def Own.Frame (o o' : Own) : Prop := ∃ es, o' = { o with failures := o.failures ++ es }

theorem Own.Frame.refl (o : Own) : o.Frame o := ⟨[], by rw [List.append_nil]⟩

/-- Failures that follow on others are recorded after them. -/
theorem Own.Frame.trans {o o' o'' : Own} (h : o.Frame o') (h' : o'.Frame o'') : o.Frame o'' := by
  obtain ⟨es, rfl⟩ := h
  obtain ⟨es', rfl⟩ := h'
  exact ⟨es ++ es', by rw [List.append_assoc]⟩

/-- A failure is recorded and changes nothing else. -/
theorem Own.frame_failing (o : Own) (err : Error) : o.Frame (o.failing err) := ⟨[err], rfl⟩

/-- A failure that was recorded is there. -/
theorem Own.mem_failing (o : Own) (err : Error) : err ∈ (o.failing err).failures := by
  simp [failing]

/-! ## Answers -/

/-- A read is answered with what the bucket holds. -/
theorem answers_read {a : Except Error (Option Bytes)}
    (h : (e.rules interval).answers g (.store (.read b.blobName)) a g') :
    g'.1.Kept interval ∧ g.1.Grows g'.1 ∧
      ((a = .ok ((g'.1.ledger.get? b.blobName).map (·.blob)) ∧ g'.2 = g.2) ∨
        ∃ err, a = .error err ∧ g'.2 = g.2.failing err) := by
  obtain ⟨now, s, reply, hkept, hgrows, htime, ha⟩ := h
  obtain ⟨htimely, hcounts⟩ := htime _ rfl
  have hcovers := (timely_iff rfl).mp htimely
  rcases Reply.answered_store ha with ⟨rfl, rfl⟩ | ⟨err, s', rfl, rfl, hs'⟩
  · exact ⟨hkept, hgrows, .inl ⟨hkept.call_read hcovers hcounts, rfl⟩⟩
  · -- A read has no effect, whether it is carried out or not.
    obtain rfl : s' = s := hs'.elim id id
    exact ⟨hkept, hgrows, .inr ⟨err, rfl, rfl⟩⟩

/-- After a creation that was answered the bucket's key is stored: the created one, or another. -/
theorem answers_create {a : Except Error Bool} {k : Key} {pem : Bytes} (hpem : k.toPem = .ok pem)
    (h : (e.rules interval).answers g
      (.store (.create b.blobName pem (Bucket.blobTtl interval))) a g') :
    g.1.Grows g'.1 ∧
      ((a = .ok true ∧ g'.1.Stores b k ∧ g'.2 = g.2) ∨
        (a = .ok false ∧ (∃ k', g'.1.Stores b k') ∧ g'.2 = g.2) ∨
        ∃ err, a = .error err ∧ g'.2 = g.2.failing err) := by
  obtain ⟨now, s, reply, hkept, hgrows, htime, ha⟩ := h
  obtain ⟨htimely, hcounts⟩ := htime _ rfl
  have hcovers := (timely_iff rfl).mp htimely
  have hgrows' := hgrows.trans (hkept.grows_create hcovers hcounts pem (Bucket.blobTtl interval))
  rcases Reply.answered_store ha with ⟨rfl, rfl⟩ | ⟨err, s', rfl, rfl, rfl | rfl⟩
  · refine ⟨hgrows', ?_⟩
    rw [hkept.call_create hcovers hcounts]
    cases hget : s.ledger.get? b.blobName with
    | none => exact .inl ⟨rfl, hkept.stores_create hcovers hcounts hpem _ hget, rfl⟩
    | some entry =>
        obtain ⟨k', hk'⟩ := hkept.stores hget
        exact .inr (.inl ⟨rfl, ⟨k', hk'.grows (hkept.grows_create hcovers hcounts _ _)⟩, rfl⟩)
  · exact ⟨hgrows, .inr (.inr ⟨err, rfl, rfl⟩)⟩
  · exact ⟨hgrows', .inr (.inr ⟨err, rfl, rfl⟩)⟩

/-- A generation changes nothing of the process but the failures. -/
theorem answers_generate {bits : Nat} {a : Except Error Key}
    (h : (e.rules interval).answers g (.generate bits) a g') :
    g.1.Grows g'.1 ∧ ((∃ k, a = .ok k ∧ g'.2 = g.2) ∨ ∃ err, a = .error err ∧
      g'.2 = g.2.failing err) := by
  obtain ⟨now, s, reply, -, hgrows, -, ha⟩ := h
  rcases Reply.answered_generate ha with ⟨k, rfl, rfl⟩ | ⟨err, rfl, rfl⟩
  · exact ⟨hgrows, .inl ⟨k, rfl, rfl⟩⟩
  · exact ⟨hgrows, .inr ⟨err, rfl, rfl⟩⟩

/-- A reading of the clock is remembered as its bucket. -/
theorem answers_time {t : Duration} (h : (e.rules interval).answers g .time t g') :
    g.1.Grows g'.1 ∧ g'.2 = { g.2 with told := some (.containing t interval) } := by
  obtain ⟨now, s, reply, -, hgrows, -, ha⟩ := h
  obtain ⟨rfl, rfl⟩ := Reply.answered_time ha
  exact ⟨hgrows, rfl⟩

/-- The current key is read from the window. -/
theorem answers_current {a : Option Key} (h : (e.rules interval).answers g .current a g') :
    g.1.Grows g'.1 ∧ a = g.2.window.current? ∧ g'.2 = g.2 := by
  obtain ⟨now, s, reply, -, hgrows, -, ha⟩ := h
  obtain ⟨rfl, rfl⟩ := Reply.answered_current ha
  exact ⟨hgrows, rfl, rfl⟩

/-- An installation is all that changes the window. -/
theorem answers_install {k : Key} {u : Unit} (h : (e.rules interval).answers g (.install k) u g') :
    g.1.Grows g'.1 ∧ g'.2 = g.2.installing k := by
  obtain ⟨now, s, reply, -, hgrows, -, ha⟩ := h
  obtain rfl := Reply.answered_install ha
  exact ⟨hgrows, rfl⟩

/-! ## Programs -/

/-- The failure is one that the errand was answered with, or its key has no document. -/
def Own.Suffered (o : Own) (err : Error) : Prop :=
  err ∈ o.failures ∨ err = Key.encodingError "PEM"

/-- A search ends with the stored key, with nothing if nothing was stored when it began, or in a
failure of the store. -/
theorem meets_find (b : Bucket) (g : View) :
    (Rotater.find b).run.Meets (e.rules interval) (fun o g' => g.1.Grows g'.1 ∧ g.2.Frame g'.2 ∧
      match o with
      | .ok (some k) => g'.1.Stores b k
      | .ok none => ∀ k, ¬ g.1.Stores b k
      | .error err => err ∈ g'.2.failures) g := by
  rw [Rotater.find, Action.meets_bind]
  refine (Action.meets_call (.read b.blobName) _ g).mpr ⟨⟨b, rfl⟩, fun a g' ha => ?_⟩
  obtain ⟨hkept, hgrows, ⟨rfl, hown⟩ | ⟨err, rfl, hown⟩⟩ := answers_read ha
  · have hframe : g.2.Frame g'.2 := hown ▸ Own.Frame.refl g.2
    cases hget : g'.1.ledger.get? b.blobName with
    | none =>
        refine ⟨hgrows, hframe, fun k hstores => ?_⟩
        obtain ⟨entry, hentry, -⟩ := hstores
        -- Whatever was stored when the search began would have been found.
        have hsome := hgrows b entry hentry
        rw [hget] at hsome
        contradiction
    | some entry =>
        obtain ⟨k, entry', hentry', hk⟩ := hkept.stores hget
        obtain rfl := Option.some.inj (hget.symm.trans hentry')
        simp only [Option.map_some, Action.meets_bind, Action.meets_ofExcept, hk, Action.meets_pure]
        exact ⟨hgrows, hframe, entry, hget, hk⟩
  · refine ⟨hgrows, hown ▸ Own.frame_failing g.2 err, ?_⟩
    rw [hown]
    exact Own.mem_failing g.2 err

/-- A generation ends with the stored key, whoever generated it, or in a failure that it was
answered with. It does not end without a key that it could read. -/
theorem meets_generateFor {r : Rotater} (hr : r.interval = interval) (b : Bucket) (g : View) :
    (r.generateFor b).run.Meets (e.rules interval) (fun o g' => g.1.Grows g'.1 ∧ g.2.Frame g'.2 ∧
      match o with
      | .ok x => g'.1.Stores b x.key
      | .error err => g'.2.Suffered err) g := by
  rw [Rotater.generateFor, Action.meets_bind, Action.meets_freshKey]
  refine ⟨trivial, fun a g₁ ha => ?_⟩
  obtain ⟨hgrows₁, ⟨k, rfl, hown₁⟩ | ⟨err, rfl, hown₁⟩⟩ := answers_generate ha
  swap
  · refine ⟨hgrows₁, hown₁ ▸ Own.frame_failing g.2 err, .inl ?_⟩
    rw [hown₁]
    exact Own.mem_failing g.2 err
  have hframe₁ : g.2.Frame g₁.2 := hown₁ ▸ Own.Frame.refl g.2
  simp only [Action.meets_bind, Action.meets_ofExcept]
  cases hpem : k.toPem with
  | error err =>
      refine ⟨hgrows₁, hframe₁, .inr ?_⟩
      rw [Key.toPem] at hpem
      split at hpem
      · contradiction
      · exact (Except.error.inj hpem).symm
  | ok pem =>
      rw [hr]
      refine (Action.meets_call (.create b.blobName pem (Bucket.blobTtl interval)) _ g₁).mpr
        ⟨⟨⟨b, rfl⟩, ⟨k, hpem⟩, rfl⟩, fun a g₂ ha => ?_⟩
      obtain ⟨hgrows₂, ⟨rfl, hk, hown₂⟩ | ⟨rfl, ⟨k', hk'⟩, hown₂⟩ | ⟨err, rfl, hown₂⟩⟩ :=
        answers_create hpem ha
      · exact ⟨hgrows₁.trans hgrows₂, hown₂ ▸ hframe₁, hk⟩
      · -- The race is lost, so the winner's key is stored and the search cannot miss it.
        simp only [Bool.false_eq_true, if_false, Action.meets_bind]
        apply (meets_find b g₂).mono
        rintro (err | _ | winner) g₃ ⟨hgrows₃, hframe₃, ho⟩
        · exact ⟨hgrows₁.trans (hgrows₂.trans hgrows₃), (hown₂ ▸ hframe₁).trans hframe₃, .inl ho⟩
        · exact absurd hk' (ho k')
        · exact ⟨hgrows₁.trans (hgrows₂.trans hgrows₃), (hown₂ ▸ hframe₁).trans hframe₃, ho⟩
      · refine ⟨hgrows₁.trans hgrows₂, hframe₁.trans (hown₂ ▸ Own.frame_failing g₁.2 err), .inl ?_⟩
        rw [hown₂]
        exact Own.mem_failing g₁.2 err

/-- A rotation settles on the stored key, which the window accepts; if it fails, the window is as it
was. -/
theorem meets_rotate {r : Rotater} (hr : r.interval = interval) (b : Bucket) (g : View) :
    (r.rotate b).run.Meets (Errand.rules interval (.rotate b)) (fun o g' => g.1.Grows g'.1 ∧
      match o with
      | .ok k => g'.1.Stores b k ∧ g'.2.window = g.2.window.accept k
      | .error err => g'.2.Suffered err ∧ g'.2.window = g.2.window) g := by
  rw [Rotater.rotate, Action.meets_bind]
  apply (meets_generateFor hr b g).mono
  rintro (err | x) g₁ ⟨hgrows₁, ⟨es, hown₁⟩, hx⟩
  · exact ⟨hgrows₁, hx, by rw [hown₁]⟩
  have hwindow : g₁.2.window = g.2.window := by rw [hown₁]
  simp only [Action.meets_bind, Action.meets_currentKey]
  refine ⟨trivial, fun a g₂ ha => ?_⟩
  obtain ⟨hgrows₂, rfl, hown₂⟩ := answers_current ha
  have hstores := Shared.Stores.grows hx hgrows₂
  -- Both ways the window is what accepting the key makes of it.
  by_cases hsame : g₁.2.window.current?.any (·.same x.key)
  · simp only [hsame, if_true, Action.meets_pure]
    refine ⟨hgrows₁.trans hgrows₂, hstores, ?_⟩
    rw [KeyWindow.accept, ← hwindow, if_pos hsame, hown₂]
  · simp only [hsame]
    refine ⟨⟨b, rfl, hstores⟩, fun _ g₃ ha => ?_⟩
    obtain ⟨hgrows₃, hown₃⟩ := answers_install ha
    refine ⟨hgrows₁.trans (hgrows₂.trans hgrows₃), hstores.grows hgrows₃, ?_⟩
    rw [KeyWindow.accept, ← hwindow, if_neg hsame, hown₃, hown₂]
    rfl

/-- The end of a restore, once both keys were looked for and the previous one is installed. -/
def Rotater.installCurrent (r : Rotater) (b : Bucket) (current : Option Key) : Action Bucket := do
  match current with
  | some key => Action.install key
  | none => Action.install (← r.generateFor b).key
  return b

/-- The end of a restore installs the bucket's own key as it is stored. -/
theorem meets_installCurrent {r : Rotater} (hr : r.interval = interval) {current : Option Key}
    {g : View} (htold : g.2.told = some b) (hcurrent : ∀ k ∈ current, g.1.Stores b k) :
    (r.installCurrent b current).run.Meets (Errand.rules interval .restore) (fun o g' =>
      g.1.Grows g'.1 ∧ match o with
      | .ok b' => b' = b ∧ ∃ k, g'.1.Stores b k ∧ g'.2.window = g.2.window.rotate k
      | .error err => g'.2.Suffered err) g := by
  cases current with
  | some k =>
      have hstores := hcurrent k rfl
      refine (Action.meets_bind (Action.install k) (fun _ => pure b) g).mpr
        ⟨⟨b, ⟨b, htold, .inl rfl⟩, hstores⟩, fun _ g₁ ha => ?_⟩
      obtain ⟨hgrows₁, hown₁⟩ := answers_install ha
      refine ⟨hgrows₁, rfl, k, hstores.grows hgrows₁, ?_⟩
      rw [hown₁]
      rfl
  | none =>
      refine (Action.meets_bind (r.generateFor b) _ g).mpr ((meets_generateFor hr b g).mono ?_)
      rintro (err | x) g₁ ⟨hgrows₁, ⟨es, hown₁⟩, hx⟩
      · exact ⟨hgrows₁, hx⟩
      refine (Action.meets_bind (Action.install x.key) (fun _ => pure b) g₁).mpr
        ⟨⟨b, ⟨b, by rw [hown₁]; exact htold, .inl rfl⟩, hx⟩, fun _ g₂ ha => ?_⟩
      obtain ⟨hgrows₂, hown₂⟩ := answers_install ha
      refine ⟨hgrows₁.trans hgrows₂, rfl, x.key, Shared.Stores.grows hx hgrows₂, ?_⟩
      rw [hown₂, hown₁]
      rfl

/-- A window that was brought up to date for a bucket: the key of the bucket before was installed,
if anything was stored for that bucket at first, and then the bucket's own key. -/
def Restored (before g : View) (b : Bucket) : Prop :=
  ∃ k, g.1.Stores b k ∧
    ((∃ k', g.1.Stores b.previous k' ∧ g.2.window = (before.2.window.rotate k').rotate k) ∨
      ((∀ k', ¬ before.1.Stores b.previous k') ∧ g.2.window = before.2.window.rotate k))

/-- A restore that comes out well installs the stored keys of its bucket and of the one before; one
that fails suffers its failure. -/
theorem meets_restore {r : Rotater} (hr : r.interval = interval) {g : View}
    (hg : g.2.installs = []) :
    r.restore.run.Meets (Errand.rules interval .restore) (fun o g' => g.1.Grows g'.1 ∧
      match o with
      | .ok b => Restored g g' b
      | .error err => g'.2.Suffered err) g := by
  rw [Rotater.restore, Action.meets_bind, Action.meets_now]
  refine ⟨hg, fun now g₁ ha => ?_⟩
  obtain ⟨hgrows₁, hown₁⟩ := answers_time ha
  simp only [Rotater.bucketAt, hr]
  generalize Bucket.containing now interval = b at hown₁ ⊢
  rw [Action.meets_bind]
  apply (meets_find b.previous g₁).mono
  rintro (err | previous) g₂ ⟨hgrows₂, ⟨es₂, hown₂⟩, hprevious⟩
  · exact ⟨hgrows₁.trans hgrows₂, .inl hprevious⟩
  simp only [Action.meets_bind]
  apply (meets_find b g₂).mono
  rintro (err | current) g₃ ⟨hgrows₃, ⟨es₃, hown₃⟩, hcurrent⟩
  · exact ⟨hgrows₁.trans (hgrows₂.trans hgrows₃), .inl hcurrent⟩
  have hgrows : g.1.Grows g₃.1 := hgrows₁.trans (hgrows₂.trans hgrows₃)
  have htold : g₃.2.told = some b := by rw [hown₃, hown₂, hown₁]
  have hwindow : g₃.2.window = g.2.window := by rw [hown₃, hown₂, hown₁]
  have hstores : ∀ k ∈ current, g₃.1.Stores b k := by
    rintro k rfl
    exact hcurrent
  -- What is installed last is the bucket's own key, after that of the bucket before if there is
  -- one.
  cases previous with
  | none =>
      apply (meets_installCurrent hr htold hstores).mono
      rintro (err | b') g₄ ⟨hgrows₄, ho⟩
      · exact ⟨hgrows.trans hgrows₄, ho⟩
      obtain ⟨rfl, k, hk, hwindow₄⟩ := ho
      refine ⟨hgrows.trans hgrows₄, k, hk, .inr ⟨fun k' hk' => ?_, by rw [hwindow₄, hwindow]⟩⟩
      exact hprevious k' (hk'.grows hgrows₁)
  | some k' =>
      have hk' : g₃.1.Stores b.previous k' := Shared.Stores.grows hprevious hgrows₃
      refine (Action.meets_bind (Action.install k') (fun _ => r.installCurrent b current) g₃).mpr
        ⟨⟨b.previous, ⟨b, htold, .inr rfl⟩, hk'⟩, fun _ g₄ ha => ?_⟩
      obtain ⟨hgrows₄, hown₄⟩ := answers_install ha
      have htold₄ : g₄.2.told = some b := by rw [hown₄]; exact htold
      have hwindow₄ : g₄.2.window = g.2.window.rotate k' := by rw [hown₄, ← hwindow]; rfl
      apply (meets_installCurrent hr htold₄ fun k hk => (hstores k hk).grows hgrows₄).mono
      rintro (err | b') g₅ ⟨hgrows₅, ho⟩
      · exact ⟨hgrows.trans (hgrows₄.trans hgrows₅), ho⟩
      obtain ⟨rfl, k, hk, hwindow₅⟩ := ho
      refine ⟨hgrows.trans (hgrows₄.trans hgrows₅), k, hk,
        .inl ⟨k', hk'.grows (hgrows₄.trans hgrows₅), by rw [hwindow₅, hwindow₄]⟩⟩

/-! ## Promises -/

/-- What an errand promises of its outcome. -/
def Errand.Promises (before : View) : Errand → Outcome → View → Prop
  | .find b, .found (.ok (some k)), g => g.1.Stores b k
  | .find b, .found (.ok none), _ => ∀ k, ¬ before.1.Stores b k
  | .find _, .found (.error err), g => g.2.Suffered err
  | .generateFor b, .generated (.ok x), g => g.1.Stores b x.key
  | .generateFor _, .generated (.error err), g => g.2.Suffered err
  | .restore, .restored (.ok b), g => Restored before g b
  | .restore, .restored (.error err), g => g.2.Suffered err
  | .rotate b, .rotated (.ok k), g => g.1.Stores b k ∧ g.2.window = before.2.window.accept k
  | .rotate _, .rotated (.error err), g => g.2.Suffered err ∧ g.2.window = before.2.window
  | _, _, _ => False

/-- Every errand keeps its promise, from where it begins. -/
theorem Errand.meets_program {r : Rotater} (hr : r.interval = interval) (e : Errand) {g : View}
    (hg : g.2.installs = []) : (e.program r).Meets (e.rules interval) (e.Promises g) g := by
  cases e with
  | find b =>
      rw [program, Program.meets_bind]
      apply (meets_find b g).mono
      rintro (err | _ | k) g' ⟨-, -, ho⟩
      · exact .inl ho
      · exact ho
      · exact ho
  | generateFor b =>
      rw [program, Program.meets_bind]
      apply (meets_generateFor hr b g).mono
      rintro (err | x) g' ⟨-, -, ho⟩
      · exact ho
      · exact ho
  | restore =>
      rw [program, Program.meets_bind]
      apply (meets_restore hr hg).mono
      rintro (err | b) g' ⟨-, ho⟩
      · exact ho
      · exact ho
  | rotate b =>
      rw [program, Program.meets_bind]
      apply (meets_rotate hr b g).mono
      rintro (err | k) g' ⟨-, ho⟩
      · exact ho
      · exact ho

/-- A promise about stored keys stays true as the store grows. -/
theorem Errand.Promises.grows {before : View} {o : Outcome} {s s' : Shared} {own : Own}
    (h : e.Promises before o (s, own)) (hgrows : s.Grows s') : e.Promises before o (s', own) := by
  cases e <;> rcases o with (_ | _ | _) | (_ | _) | (_ | _) | (_ | _)
  all_goals first | exact h | exact Shared.Stores.grows h hgrows | skip
  · obtain ⟨k, hk, ⟨k', hk', hwindow⟩ | h⟩ := h
    · exact ⟨k, hk.grows hgrows, .inl ⟨k', hk'.grows hgrows, hwindow⟩⟩
    · exact ⟨k, hk.grows hgrows, .inr h⟩
  · exact ⟨h.1.grows hgrows, h.2⟩

end Keyring.Rotation
