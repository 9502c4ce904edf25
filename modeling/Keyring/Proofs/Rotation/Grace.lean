import Keyring.Proofs.Rotation.Agreement

/-! # The key of the bucket before

Tokens that a peer signed in the preceding bucket verify as long as its key is in the window. A
restore looks for that key and installs it. A rotation looks only for its own bucket's key and keeps
what was current: that is the key of the preceding bucket if the process came from there, and
another one if it missed a bucket.
-/

namespace Keyring.Rotation.Peers

open Store

variable {ι : Type} [DecidableEq ι] {r : ι → Rotater} {interval : Duration} {p : Peers ι}
  {d : Deed ι} {b : Bucket} {kp : Key}

/-- After a restore the key that was stored for the bucket before is in the window. -/
theorem mem_of_restored {before : View} {g : View} (h : Restored before g b)
    (hgrows : before.1.Grows g.1) (hkp : before.1.Stores b.previous kp) :
    kp ∈ g.2.window.toList := by
  obtain ⟨k, -, ⟨k', hk', hwindow⟩ | ⟨hnone, -⟩⟩ := h
  · obtain rfl := (hkp.grows hgrows).unique hk'
    rw [hwindow, KeyWindow.toList_rotate, KeyWindow.current?_rotate]
    exact List.mem_cons_self
  · exact absurd hkp (hnone kp)

/-- What a verifier finds after a rotation, by the key of the bucket that was settled before. -/
theorem isSome_find?_of_settled {before : View} {s : Bucket} {k ks : Key}
    (hsettled : before.2.Settled before.1) (hs : before.2.settled = some s)
    (hks : before.1.Stores s ks) (kid : String) :
    ((before.2.window.accept k).find? kid).isSome ↔
      ks.id = kid ∨ k.id = kid ∨ ks.id = k.id ∧ (before.2.window.find? kid).isSome := by
  obtain ⟨ks', c, hks', hc, hsame⟩ := hsettled s hs
  obtain rfl := hks'.unique hks
  rw [Key.same_iff] at hsame
  rw [KeyWindow.isSome_find?_accept, hc, Option.any_some, Option.any_some, decide_eq_true_eq,
    Key.same_iff, hsame]

/-- After a restore for a bucket, the key that was stored for the bucket before when the restore
began is in the window. After a rotation it is found there exactly if it is named like the key that
was current, or like the bucket's own key, or was found before and the bucket's own key was current.
If the process had settled a bucket, its key was the current one; so the key of the bucket before is
kept if that was the settled one. -/
theorem grace_iff (hr : ∀ i, (r i).interval = interval) (h : Reachable r (InTime interval) p)
    (hd : d ∈ p.journal) (hkp : d.before.1.Stores b.previous kp) :
    (d.errand = .restore → d.outcome = .restored (.ok b) → kp ∈ d.after.window.toList) ∧
    ∀ k, d.errand = .rotate b → d.outcome = .rotated (.ok k) →
      ((d.after.window.find? kp.id).isSome ↔
        d.before.2.window.current?.any (·.id = kp.id) ∨ k.id = kp.id ∨
          (d.before.2.window.current?.any (·.same k) ∧ (d.before.2.window.find? kp.id).isSome)) ∧
      ∀ s ks, d.before.2.settled = some s → d.before.1.Stores s ks →
        ((d.after.window.find? kp.id).isSome ↔
          s = b.previous ∨ ks.id = kp.id ∨ k.id = kp.id ∨
            (ks.id = k.id ∧ (d.before.2.window.find? kp.id).isSome)) := by
  have hsound := (h.sound hr).journal d hd
  have hpromise := hsound.promise
  constructor
  · intro he ho
    rw [he, ho] at hpromise
    exact mem_of_restored hpromise hsound.since hkp
  · intro k he ho
    rw [he, ho] at hpromise
    obtain ⟨-, hwindow⟩ := hpromise
    simp only at hwindow
    rw [hwindow]
    refine ⟨KeyWindow.isSome_find?_accept _ _ _, fun s ks hs hks => ?_⟩
    rw [isSome_find?_of_settled hsound.settled hs hks]
    constructor
    · exact .inr
    · rintro (rfl | hfound)
      · exact .inl (congrArg Key.id (hks.unique hkp))
      · exact hfound

/-- Two peers restore in bucket 10. In bucket 11 only the second one rotates, and in bucket 12 only
the first one. -/
def missed : List (Move Bool) :=
  [.begin false .restore, .answer false .served, .answer false .served, .answer false .served,
   .answer false (.generated (.ok .small55)), .answer false .served, .answer false .served,
   .conclude false,
   .begin true .restore, .answer true .served, .answer true .served, .answer true .served,
   .answer true .served, .conclude true,
   .clock (.ofSeconds 39600),
   .begin true (.rotate (.clamp 11)), .answer true (.generated (.ok .small85)),
   .answer true .served, .answer true .served, .answer true .served, .conclude true,
   .clock (.ofSeconds 43200),
   .begin false (.rotate (.clamp 12)), .answer false (.generated (.ok .small187)),
   .answer false .served, .answer false .served, .answer false .served, .conclude false]

/-- The rotation that missed none keeps the key of the bucket before. -/
theorem grace_kept : ∃ p,
    after (fun _ => hourly) (InTime hourly.interval) (.ofSeconds 36000)
      (missed.take 21) = some p ∧
    ∃ d ∈ p.journal, d.outcome = .rotated (.ok .small85) ∧
      d.before.1.Stores (Bucket.clamp 11).previous .small55 ∧
      (d.after.window.find? Key.small55.id).isSome := by
  have hrun : ((after (fun _ => hourly) (InTime hourly.interval) (.ofSeconds 36000)
      (missed.take 21)).any fun p => p.journal.any fun d =>
        d.errand = .rotate (.clamp 11) ∧ d.outcome = .rotated (.ok .small85) ∧
        d.before.2.settled = some (Bucket.clamp 11).previous ∧
        (d.before.1.ledger.get? (Bucket.clamp 11).previous.blobName).map (·.blob) =
          Key.small55.toPem.toOption) = true := by
    decide +kernel
  simp only [Option.any_eq_true, List.any_eq_true, decide_eq_true_eq] at hrun
  obtain ⟨p, hp, d, hd, he, ho, hsettled, hblob⟩ := hrun
  obtain ⟨pem, hpem⟩ := Key.exists_toPem (k := .small55) (by decide)
  have hstores : d.before.1.Stores (Bucket.clamp 11).previous .small55 :=
    Shared.stores_of_blob hpem (by rw [hblob, hpem]; rfl)
  have hgrace := (grace_iff (fun _ => rfl) (reachable_after hp) hd hstores).2 .small85 he ho
  exact ⟨p, hp, d, hd, ho, hstores, (hgrace.2 _ .small55 hsettled hstores).mpr (.inl rfl)⟩

/-- The rotation that missed a bucket comes out well in bucket 12. The key of bucket 11 was stored
and live when it began, and is not in the window. -/
theorem grace_lost : ∃ p,
    after (fun _ => hourly) (InTime hourly.interval) (.ofSeconds 36000) missed = some p ∧
    ∃ d ∈ p.journal, d.errand = .rotate (.clamp 12) ∧ d.outcome.error? = none ∧
      hourly.bucketAt d.began = .clamp 12 ∧
      d.before.1.ledger.live? d.began (Bucket.clamp 11).blobName = Key.small85.toPem.toOption ∧
      Key.small85.toPem.toOption.isSome ∧ d.after.window = .two .small55 .small187 := by
  have hrun : ((after (fun _ => hourly) (InTime hourly.interval) (.ofSeconds 36000) missed).any
      fun p => p.journal.any fun d => d.errand = .rotate (.clamp 12) ∧ d.outcome.error? = none ∧
        hourly.bucketAt d.began = .clamp 12 ∧
        d.before.1.ledger.live? d.began (Bucket.clamp 11).blobName = Key.small85.toPem.toOption ∧
        Key.small85.toPem.toOption.isSome ∧ d.after.window = .two .small55 .small187) = true := by
    decide +kernel
  simpa only [Option.any_eq_true, List.any_eq_true, decide_eq_true_eq] using hrun

end Keyring.Rotation.Peers
