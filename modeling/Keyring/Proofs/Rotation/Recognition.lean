import Keyring.Proofs.Key.Names
import Keyring.Proofs.Rotation.Restore

/-! # Keys that a rotation recognises

A rotation takes the key that it settled on for the current one if both have the same name. Names
stand for public halves, so it installs exactly the keys whose public half is not that of the
current key.
-/

namespace Keyring

open Rotation Store

namespace Rotation.Rotater

variable {σ : Type}

/-- Settling a key leaves the window as it is. -/
theorem window_generateFor (r : Rotater) (bucket : Bucket) (w : World σ) (v : KeyWindow) (s : σ) :
    ((r.generateFor bucket).run.run w v s).2.1 = v :=
  Program.Meets.run (meets_generateFor_alone (v := v) r bucket) w s

/-- Once a rotation has settled a key, the window accepts it. -/
theorem run_rotate (r : Rotater) (bucket : Bucket) (w : World σ) (v : KeyWindow) (s : σ) :
    (r.rotate bucket).run.run w v s = match (r.generateFor bucket).run.run w v s with
      | (.ok g, v, s) => (.ok g.key, v.accept g.key, s)
      | (.error e, v, s) => (.error e, v, s) := by
  rw [rotate, Action.run_bind]
  rcases (r.generateFor bucket).run.run w v s with ⟨e | g, v, s⟩
  · rfl
  · have hcurrent : Action.currentKey.run.run w v s = (.ok v.current?, v, s) := rfl
    simp only [Action.run_bind, hcurrent]
    rw [KeyWindow.accept]
    split <;> rfl

end Rotation.Rotater

namespace KeyWindow

variable {v : KeyWindow} {a b : Key}

/-- A key is installed if its public half is not that of the current key. -/
theorem accept_of_noCollision (hcurrent : v.current? = some a) (hcollision : a.NoCollision b) :
    v.accept b = if a.SamePublic b then v else .two a b := by
  rw [accept, rotate, hcurrent, Option.any_some]
  by_cases hpublic : a.SamePublic b
  · rw [if_pos hpublic, if_pos (Key.same_iff.mpr (Key.id_eq_of_samePublic hpublic))]
  · rw [if_neg hpublic,
      if_neg fun hsame => hpublic (Key.samePublic_of_id_eq (Key.same_iff.mp hsame) hcollision)]

end KeyWindow

namespace Key

/-- Names stand for public halves: a name is a short text, keys with one public half have one name,
and keys with one name have one public half unless their texts collide. A rotation that settles on
`b` while `a` is the current key then leaves the window as it is if both have one public half, and
installs `b` if not. -/
theorem identified (a b : Key) : IsName a.id ∧ (a.SamePublic b → a.id = b.id) ∧
    (a.NoCollision b → (a.id = b.id ↔ a.SamePublic b) ∧ (a.same b ↔ a.SamePublic b) ∧
      ∀ {σ : Type} (w : World σ) (r : Rotater) (bucket : Bucket) (v v' : KeyWindow) (s s' : σ)
        (g : Generation),
        v.current? = some a → (r.generateFor bucket).run.run w v s = (.ok g, v', s') → g.key = b →
          (r.rotate bucket).run.run w v s =
          (.ok b, if a.SamePublic b then v else .two a b, s')) := by
  refine ⟨isName_id a, id_eq_of_samePublic, fun hcollision => ?_⟩
  refine ⟨id_eq_iff_samePublic hcollision, same_iff.trans (id_eq_iff_samePublic hcollision), ?_⟩
  rintro σ w r bucket v v' s s' g hcurrent hrun rfl
  have hwindow := Rotater.window_generateFor r bucket w v s
  rw [hrun] at hwindow
  obtain rfl : v' = v := hwindow
  rw [Rotater.run_rotate, hrun]
  simp only
  rw [KeyWindow.accept_of_noCollision hcurrent hcollision]

/-- The key with the modulus 55, its factors exchanged, and with another private exponent. -/
def turned55 : Key := ⟨(Rsa.PrivateKey.ofComponents? 55 3 7 11 5).get (by decide)⟩

/-- A rotation that settles on a key with the current public half leaves the window, though the
private half is another one. One that settles on another modulus installs its key. -/
theorem identified_small55 :
    turned55 ≠ small55 ∧ small55.id = turned55.id ∧ small55.id ≠ small85.id ∧
      ((brisk.rotate .zero).run.run (stillWorld .zero (.ok turned55)) (.one small55) {}).2.1 =
        .one small55 ∧
      ((brisk.rotate .zero).run.run (stillWorld .zero (.ok small85)) (.one small55) {}).2.1 =
        .two small55 small85 := by
  have hsame : small55.SamePublic turned55 := by decide
  have hother : ¬ small55.SamePublic small85 := by decide
  have hdigest : small55.digest ≠ small85.digest := by
    rw [digest_eq, digest_eq]
    decide +kernel
  obtain ⟨-, -, hturned⟩ := identified small55 turned55
  obtain ⟨hturnedId, -, hturnedRotate⟩ := hturned fun _ => text_eq_of_samePublic hsame
  obtain ⟨-, -, hsmall⟩ := identified small55 small85
  obtain ⟨hsmallId, -, hsmallRotate⟩ := hsmall fun h => absurd h hdigest
  refine ⟨by decide, hturnedId.mpr hsame, fun hid => hother (hsmallId.mp hid), ?_, ?_⟩
  · have hwon :
        ((brisk.generateFor .zero).run.run (stillWorld .zero (.ok turned55)) (.one small55) {}).1 =
        .ok (.won turned55) := by decide
    rw [hturnedRotate _ _ _ _ _ _ _ _ rfl (Prod.ext hwon rfl) rfl, if_pos hsame]
  · have hwon :
        ((brisk.generateFor .zero).run.run (stillWorld .zero (.ok small85)) (.one small55) {}).1 =
        .ok (.won small85) := by decide
    rw [hsmallRotate _ _ _ _ _ _ _ _ rfl (Prod.ext hwon rfl) rfl, if_neg hother]

end Key

end Keyring
