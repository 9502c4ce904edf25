import Keyring.Proofs.Key
import Keyring.Proofs.Rotation.Peers

/-! # What the store keeps

As long as all calls come in time, the blob that was first accepted for a bucket stays the bucket's
blob: nobody finds it expired who may still ask for it, so nobody can put another in its place.
-/

namespace Keyring.Rotation

open Store

/-! ## Calls in time -/

/-- The call is about the bucket of the clock or the one before. -/
def Timely (interval now : Duration) (c : Call) : Prop :=
  c.name = (Bucket.containing now interval).blobName ∨
    c.name = (Bucket.containing now interval).previous.blobName

/-- The call is timely, and the clock still counts. -/
def InTime (interval now : Duration) (c : Call) : Prop :=
  Timely interval now c ∧ Bucket.Counts interval now

instance (interval now : Duration) (c : Call) : Decidable (Timely interval now c) :=
  inferInstanceAs (Decidable (_ ∨ _))

instance (interval now : Duration) (c : Call) : Decidable (InTime interval now c) :=
  inferInstanceAs (Decidable (_ ∧ _))

/-- A call about a bucket is timely while the clock is in the bucket or in the next one. -/
theorem timely_iff {interval now : Duration} {c : Call} {b : Bucket} (h : c.name = b.blobName) :
    Timely interval now c ↔ b.Covers interval now := by
  rw [Timely, Bucket.Covers, h, Bucket.blobName_inj, Bucket.blobName_inj]
  constructor
  · rintro (rfl | rfl)
    · exact .inl rfl
    · exact .inr (Bucket.next_previous_containing now interval).symm
  · rintro (hb | hb)
    · exact .inl hb.symm
    · rcases Bucket.next_eq_containing hb.symm with h | h
      · exact .inl h
      · exact .inr h

namespace Shared

variable {interval now : Duration} {s s' s'' : Shared} {b : Bucket} {k k' : Key} {e : Entry}

/-! ## Stored keys -/

/-- The blob of the bucket, live or not, is the document of the key. -/
def Stores (s : Shared) (b : Bucket) (k : Key) : Prop :=
  ∃ e, s.ledger.get? b.blobName = some e ∧ Key.ofPem e.blob = .ok k

/-- A bucket stores one key. -/
theorem Stores.unique (h : s.Stores b k) (h' : s.Stores b k') : k = k' := by
  obtain ⟨e, he, hk⟩ := h
  obtain ⟨e', he', hk'⟩ := h'
  obtain rfl := Option.some.inj (he.symm.trans he')
  exact Except.ok.inj (hk.symm.trans hk')

/-- A bucket whose blob is the document of a key stores the key. -/
theorem stores_of_blob {pem : Bytes} (hpem : k.toPem = .ok pem)
    (h : (s.ledger.get? b.blobName).map (·.blob) = some pem) : s.Stores b k := by
  obtain ⟨e, he, rfl⟩ := Option.map_eq_some_iff.mp h
  exact ⟨e, he, Key.ofPem_toPem hpem⟩

/-- No entry of a bucket was replaced. -/
def Grows (s s' : Shared) : Prop :=
  ∀ (b : Bucket) e, s.ledger.get? b.blobName = some e → s'.ledger.get? b.blobName = some e

theorem Grows.refl (s : Shared) : s.Grows s := fun _ _ h => h

/-- What grows twice grows. -/
theorem Grows.trans (h : s.Grows s') (h' : s'.Grows s'') : s.Grows s'' :=
  fun b e he => h' b e (h b e he)

/-- A bucket keeps its key when more is stored. -/
theorem Stores.grows (hk : s.Stores b k) (h : s.Grows s') : s'.Stores b k := by
  obtain ⟨e, he, hk⟩ := hk
  exact ⟨e, h b e he, hk⟩

/-! ## Custody -/

/-- The store keeps one blob for a bucket: the first one accepted, which is the document of a key
and outlives the next bucket. -/
structure Kept (interval : Duration) (s : Shared) : Prop where
  accepted_eq : ∀ b : Bucket, s.accepted.filter (·.1 = b.blobName) =
    (s.ledger.get? b.blobName).toList.map fun e => (b.blobName, e.blob)
  isKey : ∀ (b : Bucket) e, s.ledger.get? b.blobName = some e → ∃ k : Key, k.toPem = .ok e.blob
  outlives : ∀ (b : Bucket) e, s.ledger.get? b.blobName = some e →
    ∀ now, b.Covers interval now → Bucket.Counts interval now → now < e.expiry

/-- Nothing is lost from an empty store. -/
theorem kept_empty (interval : Duration) : Kept interval {} where
  accepted_eq _ := rfl
  isKey _ _ h := by contradiction
  outlives _ _ h := by contradiction

/-- What a bucket holds is the document of a key. -/
theorem Kept.stores (h : s.Kept interval) (he : s.ledger.get? b.blobName = some e) :
    ∃ k, s.Stores b k := by
  obtain ⟨k, hk⟩ := h.isKey b e he
  exact ⟨k, stores_of_blob hk (by rw [he]; rfl)⟩

/-- In time, what a bucket holds is live. -/
theorem Kept.live?_eq (h : s.Kept interval) (hb : b.Covers interval now)
    (hnow : Bucket.Counts interval now) :
    s.ledger.live? now b.blobName = (s.ledger.get? b.blobName).map (·.blob) := by
  rw [Ledger.live?]
  cases he : s.ledger.get? b.blobName with
  | none => rfl
  | some e =>
      have hlive := h.outlives b e he now hb hnow
      simp only [if_pos hlive, Option.map_some]

/-! ## Calls -/

/-- A read in time is answered with what the bucket holds. -/
theorem Kept.call_read (h : s.Kept interval) (hb : b.Covers interval now)
    (hnow : Bucket.Counts interval now) :
    (s.ledger.call now (.read b.blobName)).1 = .ok ((s.ledger.get? b.blobName).map (·.blob)) := by
  rw [Ledger.call, h.live?_eq hb hnow]

/-- A creation in time is accepted if the bucket holds nothing yet. -/
theorem Kept.call_create (h : s.Kept interval) (hb : b.Covers interval now)
    (hnow : Bucket.Counts interval now) (blob : Bytes) (ttl : Duration) :
    (s.ledger.call now (.create b.blobName blob ttl)).1 =
      .ok (s.ledger.get? b.blobName).isNone := by
  rw [Ledger.call, h.live?_eq hb hnow]
  cases s.ledger.get? b.blobName <;> rfl

/-- What a creation in time leads to. -/
theorem Kept.after_create (h : s.Kept interval) (hb : b.Covers interval now)
    (hnow : Bucket.Counts interval now) (blob : Bytes) (ttl : Duration) :
    s.after now (.create b.blobName blob ttl) =
      if (s.ledger.get? b.blobName).isSome then s
      else ⟨s.ledger.store now b.blobName blob ttl, s.accepted ++ [(b.blobName, blob)]⟩ := by
  rw [after, Ledger.call]
  simp only [h.live?_eq hb hnow, Option.isSome_map]
  split <;> rfl

/-- A creation for a bucket that covers the time loses no key. -/
theorem Kept.grows_create (h : s.Kept interval) (hb : b.Covers interval now)
    (hnow : Bucket.Counts interval now) (blob : Bytes) (ttl : Duration) :
    s.Grows (s.after now (.create b.blobName blob ttl)) := by
  rw [h.after_create hb hnow]
  split
  · exact Grows.refl s
  · next hnone =>
      intro b' e he
      rw [Ledger.store, Ledger.get?_put, if_neg]
      · exact he
      · intro hname
        rw [hname, he] at hnone
        exact hnone rfl

/-- A creation in time of the document of a key leaves the store in order. -/
theorem Kept.create (h : s.Kept interval) (hb : b.Covers interval now)
    (hnow : Bucket.Counts interval now) {pem : Bytes} (hpem : k.toPem = .ok pem) :
    (s.after now (.create b.blobName pem (Bucket.blobTtl interval))).Kept interval := by
  rw [h.after_create hb hnow]
  split
  · exact h
  · next hnone =>
      have hget : s.ledger.get? b.blobName = none := by simpa using hnone
      refine ⟨fun b' => ?_, fun b' e he => ?_, fun b' e he t ht hcounts => ?_⟩
      · -- Nothing was accepted for `b` before, and nothing is for any other bucket now.
        rw [List.filter_append, h.accepted_eq, Ledger.store, Ledger.get?_put]
        by_cases hbb : b = b'
        · subst hbb
          simp [hget]
        · have hname : b.blobName ≠ b'.blobName := fun hn => hbb (Bucket.blobName_injective hn)
          simp [hname]
      · rw [Ledger.store, Ledger.get?_put] at he
        split at he
        · obtain rfl := Option.some.inj he
          exact ⟨k, hpem⟩
        · exact h.isKey b' e he
      · rw [Ledger.store, Ledger.get?_put] at he
        split at he
        · next hname =>
            obtain rfl := Option.some.inj he
            obtain rfl := Bucket.blobName_injective hname
            -- The new entry lives long enough, since the clock is in its bucket or in the next one.
            exact Bucket.lt_expiry_of_covers hb ht hcounts
        · exact h.outlives b' e he t ht hcounts

/-- After a creation in time the bucket holds something, and the created key if it was accepted. -/
theorem Kept.stores_create (h : s.Kept interval) (hb : b.Covers interval now)
    (hnow : Bucket.Counts interval now) {pem : Bytes} (hpem : k.toPem = .ok pem) (ttl : Duration)
    (hnone : s.ledger.get? b.blobName = none) :
    (s.after now (.create b.blobName pem ttl)).Stores b k := by
  rw [h.after_create hb hnow, hnone]
  apply stores_of_blob hpem
  simp [Ledger.store, Ledger.get?_put]

end Shared

end Keyring.Rotation
