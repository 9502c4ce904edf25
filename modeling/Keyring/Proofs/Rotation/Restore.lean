import Keyring.Proofs.Rotation.Errands
import Keyring.Proofs.Rotation.Upkeep
import Keyring.Simulation.Fleet
import Keyring.Store.Staged

/-! # Restores that fail

A restore looks for both keys before it installs any. The previous key is installed before the
current one is settled, so a restore that has found only the previous key may fail after the window
has changed; one that fails otherwise leaves the window as it was.
-/

namespace Keyring.Rotation

open Simulation Store

variable {σ τ α β : Type} {w : World σ} {v window : KeyWindow} {s : σ}

/-! ## Runs without interruption -/

/-- What is promised under the rules of the window holds at the end of a run. -/
theorem Program.Meets.run {p : Program α} {Q : α → KeyWindow → Prop}
    (h : p.Meets (windowRules v) Q window) (w : World σ) (s : σ) :
    Q (p.run w window s).1 (p.run w window s).2.1 := by
  induction p generalizing window s with
  | done a => exact h
  | ask q next ih => exact ih _ (h.2 _ _ (answers_answer w q window s)) _

/-- Running one action after the other: a failure of the first one ends both. -/
theorem Action.run_bind (x : Action β) (f : β → Action α) (w : World σ) (v : KeyWindow) (s : σ) :
    (x >>= f).run.run w v s = match x.run.run w v s with
      | (.ok b, v, s) => (f b).run.run w v s
      | (.error e, v, s) => (.error e, v, s) := by
  rw [run_bind_eq, Program.run_bind]
  rcases x.run.run w v s with ⟨e | b, v, s⟩ <;> rfl

/-- What a world shows for a bucket, and how it is left. -/
def World.lookUp (w : World σ) (b : Bucket) (s : σ) : Except Error (Option Key) × σ :=
  match w.call (.read b.blobName) s with
  | (.ok (some pem), s) => ((Key.ofPem pem).map some, s)
  | (.ok none, s) => (.ok none, s)
  | (.error e, s) => (.error e, s)

/-- A search ends with what the world shows. -/
theorem Rotater.run_find (b : Bucket) (w : World σ) (v : KeyWindow) (s : σ) :
    (find b).run.run w v s = ((w.lookUp b s).1, v, (w.lookUp b s).2) := by
  have hcall : (Action.call (.read b.blobName)).run.run w v s =
      ((w.call (.read b.blobName) s).1, v, (w.call (.read b.blobName) s).2) := rfl
  rw [find, Action.run_bind, hcall, World.lookUp]
  rcases w.call (.read b.blobName) s with ⟨e | _ | pem, s⟩
  · rfl
  · rfl
  · cases hpem : Key.ofPem pem with
    | error e => simp only [Action.run_bind, Action.ofExcept, hpem]; rfl
    | ok key => simp only [Action.run_bind, Action.ofExcept, hpem]; rfl

namespace Rotater

variable {r : Rotater} {b : Bucket}

/-- A restore, as far as nothing is installed: what it still does depends on what it found. -/
theorem run_restore (r : Rotater) (w : World σ) (v : KeyWindow) (s : σ) :
    r.restore.run.run w v s =
      match w.lookUp (r.bucketAt (w.time s)).previous s with
      | (.error e, s) => (.error e, v, s)
      | (.ok previous, s₁) =>
        match w.lookUp (r.bucketAt (w.time s)) s₁ with
        | (.error e, s) => (.error e, v, s)
        | (.ok current, s₂) =>
          (r.installCurrent (r.bucketAt (w.time s)) current).run.run w
            (previous.elim v v.rotate) s₂ := by
  have hnow : Action.now.run.run w v s = (.ok (w.time s), v, s) := rfl
  rw [restore, Action.run_bind, hnow]
  simp only [Action.run_bind, run_find]
  rcases w.lookUp (r.bucketAt (w.time s)).previous s with ⟨e | _ | key, s₁⟩
  · rfl
  all_goals
    simp only
    rcases w.lookUp (r.bucketAt (w.time s)) s₁ with ⟨e | current, s₂⟩
    · rfl
    · cases current <;> rfl

/-! ## Failures -/

/-- Settling the current key installs it at the very end, so a failure leaves the window as it
was. -/
theorem meets_installCurrent_alone (r : Rotater) (b : Bucket) (current : Option Key) :
    (r.installCurrent b current).run.Meets (windowRules v)
      (fun o window => ∀ e, o = .error e → window = v) v := by
  cases current with
  | some key =>
      refine (Action.meets_bind (Action.install key) (fun _ => pure b) v).mpr
        ⟨rfl, fun _ window _ e he => ?_⟩
      contradiction
  | none =>
      refine (Action.meets_bind (r.generateFor b) _ v).mpr ((meets_generateFor_alone r b).mono ?_)
      rintro (err | x) window rfl
      · exact fun _ _ => rfl
      · refine (Action.meets_bind (Action.install x.key) (fun _ => pure b) window).mpr
          ⟨rfl, fun _ window' _ e he => ?_⟩
        contradiction

end Rotater

/-- The key that a restore for a bucket installs before it has settled the current one: that of the
bucket before, if the world shows it and no current key. -/
def World.early? (w : World σ) (b : Bucket) (s : σ) : Option Key :=
  match w.lookUp b.previous s with
  | (.ok (some key), s) =>
    match (w.lookUp b s).1 with
    | .ok none => some key
    | _ => none
  | _ => none

namespace Rotater

variable {r : Rotater}

/-- A failed restore leaves the window as it was, but for the previous key if it was installed
early. -/
theorem window_of_failure {e : Error} (h : (r.restore.run.run w v s).1 = .error e) :
    (r.restore.run.run w v s).2.1 = (w.early? (r.bucketAt (w.time s)) s).elim v v.rotate := by
  rw [run_restore] at h ⊢
  rw [World.early?]
  generalize r.bucketAt (w.time s) = b at h ⊢
  rcases hprevious : w.lookUp b.previous s with ⟨err | _ | key, s₁⟩
  · rfl
  all_goals
    rw [hprevious] at h
    simp only at h ⊢
    rcases hcurrent : w.lookUp b s₁ with ⟨err | current, s₂⟩
    · rfl
    rw [hcurrent] at h
    simp only at h ⊢
    have hwindow := (meets_installCurrent_alone r b current).run w s₂ e h
  · exact hwindow
  · cases current with
    | none => exact hwindow
    | some current => contradiction

end Rotater

/-- What a failed restore leaves, in a world of any kind and at the start of a process. -/
theorem early_of_failure (r : Rotater) :
    (∀ {σ : Type} (w : World σ) (v : KeyWindow) (s : σ) (e : Error),
      (r.restore.run.run w v s).1 = .error e →
        (r.restore.run.run w v s).2.1 = (w.early? (r.bucketAt (w.time s)) s).elim v v.rotate) ∧
    (∀ {τ : Type} (f : Fleet τ) (m : Member) (e : Error),
      (f.join r).members.getLast? = some m → m.restored = .error e →
        m.maintenance.window.toList =
          ((Scene.world f.backend).early? (r.bucketAt f.scene.clock.now) f.scene).toList) := by
  refine ⟨fun w v s e h => Rotater.window_of_failure h, fun f m e hm he => ?_⟩
  have hwindow (h : (r.restore.run.run (Scene.world f.backend) .empty f.scene).1 = .error e) :=
    Rotater.window_of_failure h
  rw [Fleet.join] at hm
  rcases hrun : r.restore.run.run (Scene.world f.backend) .empty f.scene with
    ⟨restored, window, scene⟩
  rw [hrun] at hm hwindow
  obtain rfl := Option.some.inj ((List.getLast?_concat).symm.trans hm)
  show window.toList = _
  rw [show window = _ from hwindow he, show (Scene.world f.backend).time f.scene =
    f.scene.clock.now from rfl]
  cases (Scene.world f.backend).early? (r.bucketAt f.scene.clock.now) f.scene <;> rfl

/-! ## A failure that comes late -/

/-- A world with a staged store whose clock stands still and that generates one key. -/
def stillWorld (now : Duration) (generated : Except Error Key) : World Staged where
  time _ := now
  call c s := s.call now c
  generate _ s := (generated, s)

/-- A store that holds the smallest key for the first bucket and fails every creation. -/
def readOnly : Staged where
  ledger := ({} : Ledger).store .zero Bucket.zero.blobName (Key.small55.toPem.toOption.getD [])
    (Bucket.blobTtl brisk.interval)
  outages := [⟨.create, none⟩]

/-- A fleet without members, on a store that nobody can read. -/
def unreachable : Fleet Staged where
  backend := Staged.backend
  scene := ⟨{ start := brisk.interval }, { outages := [⟨.read, none⟩] }, ⟨[], 0⟩⟩

/-- A process that starts in the second bucket fails to settle its key, and its window holds the
first bucket's key. One that cannot even read has no key. -/
theorem early_readOnly :
    ((brisk.restore.run.run (stillWorld brisk.interval (.ok .small85)) .empty readOnly).1 =
        .error Staged.unavailable ∧
      (brisk.restore.run.run (stillWorld brisk.interval (.ok .small85)) .empty readOnly).2.1 =
      .one .small55) ∧
    ∃ m, (unreachable.join brisk).members.getLast? = some m ∧
    m.restored = .error Staged.unavailable ∧
      m.maintenance.window = .empty := by
  constructor
  · have hfailure :
        (brisk.restore.run.run (stillWorld brisk.interval (.ok .small85)) .empty readOnly).1 =
        .error Staged.unavailable := by decide +kernel
    have hearly :
        (stillWorld brisk.interval (.ok .small85)).early? (brisk.bucketAt brisk.interval) readOnly =
        some .small55 := by decide +kernel
    refine ⟨hfailure, ?_⟩
    rw [(early_of_failure brisk).1 _ .empty readOnly _ hfailure]
    exact congrArg (fun early => early.elim KeyWindow.empty KeyWindow.empty.rotate) hearly
  · have hjoin : (unreachable.join brisk).members.getLast?.map (·.restored) =
        some (.error Staged.unavailable) := by decide
    have hearly :
        (Scene.world unreachable.backend).early? (brisk.bucketAt unreachable.scene.clock.now)
        unreachable.scene = none := by decide
    obtain ⟨m, hm, hrestored⟩ := Option.map_eq_some_iff.mp hjoin
    have hwindow := (early_of_failure brisk).2 unreachable m _ hm hrestored
    rw [hearly] at hwindow
    refine ⟨m, hm, hrestored, ?_⟩
    cases hw : m.maintenance.window with
    | empty => rfl
    | one key => rw [hw] at hwindow; contradiction
    | two older key => rw [hw] at hwindow; contradiction

/-- A restore may fail and leave another window than it began with. -/
theorem not_atomic : ¬ ∀ (r : Rotater) (w : World Staged) (v : KeyWindow) (s : Staged) (e : Error),
    (r.restore.run.run w v s).1 = .error e → (r.restore.run.run w v s).2.1 = v := by
  intro h
  have hfailure :
      (brisk.restore.run.run (stillWorld brisk.interval (.ok .small85)) .empty readOnly).1 =
      .error Staged.unavailable := by decide +kernel
  have hwindow :
      (brisk.restore.run.run (stillWorld brisk.interval (.ok .small85)) .empty readOnly).2.1 ≠
      .empty := by decide +kernel
  exact hwindow (h brisk _ .empty readOnly _ hfailure)

end Keyring.Rotation
