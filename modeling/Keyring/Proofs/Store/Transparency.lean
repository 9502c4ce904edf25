import Keyring.Proofs.SealedBlob
import Keyring.Proofs.Store.Blind
import Keyring.Store.Sealed

/-! # Sealing is transparent

Whoever calls a sealed store gets the replies of the inner store alone. The inner store gets each
call with its name and its lifetime and a wire text for the blob, and as it does nothing with that
but store and return it, it makes no difference that it is not the blob itself.
-/

namespace Keyring.Store.Sealed

/-- A call on a sealed store at a time, with the nonce that is drawn for it. -/
structure Request where
  now : Duration
  call : Call
  nonce : Bytes
  nonce_length : nonce.length = SealedBlob.nonceSize := by decide

namespace Request

/-- The call as the inner store alone would get it. -/
def plain (r : Request) : Duration × Call := (r.now, r.call)

/-- The call as the inner store gets it from the sealed store: at the same time, with the same name
and the same lifetime. -/
def locked (v : Vault) (r : Request) : Duration × Call := (r.now, r.call.map (v.text r.nonce))

/-- The cipher takes the blob that is passed. -/
def Fits (r : Request) : Prop := ∀ blob ∈ r.call.blob?, blob.length ≤ Gcm.maxLength

instance (r : Request) : Decidable r.Fits := inferInstanceAs (Decidable (∀ blob ∈ r.call.blob?, _))

end Request

variable {σ : Type} {v : Vault} {inner : Backend σ} {s s₀ : σ} {r : Request} {rs : List Request}

/-- How a sealed store replies. -/
def reply (v : Vault) (inner : Backend σ) (r : Request) (s : σ) : Reply × σ :=
  (.ofAnswer r.call (callWith v inner r.nonce r.now r.call s).1,
    (callWith v inner r.nonce r.now r.call s).2)

/-- What a sealed store makes of a reply of the inner store. -/
def opened (v : Vault) : Reply → Reply
  | .found (some stored) =>
    match v.unlock stored with
    | .ok blob => .found (some blob)
    | .error e => .failed e
  | .found none => .found none
  | .created accepted => .created accepted
  | .written => .written
  | .failed e => .failed e

/-- Each call on a sealed store is one call on the inner store. -/
theorem reply_eq (hfits : r.Fits) :
    reply v inner r s =
      (opened v (inner.reply (r.locked v) s).1, (inner.reply (r.locked v) s).2) := by
  obtain ⟨now, call, nonce, hnonce⟩ := r
  cases call with
  | read name =>
      simp only [reply, callWith, Request.locked, Call.map, Backend.reply]
      rcases inner.call now (.read name) s with ⟨(e | _ | stored), s'⟩
      · rfl
      · rfl
      · simp only [Reply.ofAnswer, opened]
        cases v.unlock stored <;> rfl
  | create name blob ttl =>
      have hlock : v.lock nonce blob = .ok (v.text nonce blob) := Vault.lock_eq (hfits blob rfl)
      simp only [reply, callWith, hlock, Request.locked, Call.map, Backend.reply]
      rcases inner.call now (.create name (v.text nonce blob) ttl) s with
        ⟨(e | accepted), s'⟩ <;> rfl
  | write name blob ttl =>
      have hlock : v.lock nonce blob = .ok (v.text nonce blob) := Vault.lock_eq (hfits blob rfl)
      simp only [reply, callWith, hlock, Request.locked, Call.map, Backend.reply]
      rcases inner.call now (.write name (v.text nonce blob) ttl) s with ⟨(e | _), s'⟩ <;> rfl

/-- A blob that the cipher does not take is refused, and the inner store is not called. -/
theorem reply_of_not_fits (h : ¬ r.Fits) :
    reply v inner r s = (.failed (.plain .encryption "Encryption failed: aead::Error"), s) := by
  obtain ⟨now, call, nonce, hnonce⟩ := r
  have hlong : ∀ blob, call.blob? = some blob → ¬ blob.length ≤ Gcm.maxLength := by
    intro blob hblob hle
    apply h
    intro other hother
    obtain rfl : blob = other := Option.some.inj (hblob.symm.trans hother)
    exact hle
  cases call with
  | read name => exact absurd (fun blob hblob => by contradiction) h
  | create name blob ttl | write name blob ttl =>
      have hlock :
          v.lock nonce blob = .error (.plain .encryption "Encryption failed: aead::Error") := by
        rw [Vault.lock, Vault.encrypt, if_neg (hlong blob rfl)]
        rfl
      simp only [reply, callWith, hlock]
      rfl

/-- The calls on a sealed store are as many calls on the inner store. -/
theorem serve_eq (hfits : ∀ r ∈ rs, r.Fits) (s : σ) :
    serve (reply v inner) rs s =
      ((serve inner.reply (rs.map (·.locked v)) s).1.map (opened v),
        (serve inner.reply (rs.map (·.locked v)) s).2) := by
  induction rs generalizing s with
  | nil => rfl
  | cons r rs ih =>
      rw [serve, reply_eq (hfits r List.mem_cons_self),
        ih fun r hr => hfits r (List.mem_cons_of_mem _ hr)]
      rfl

/-- The blob in a wire text; other texts stand for themselves. -/
def unlocked (v : Vault) (stored : Bytes) : Bytes := (v.unlock stored).toOption.getD stored

theorem unlocked_text (hfits : r.Fits) {blob : Bytes} (hblob : r.call.blob? = some blob) :
    v.unlock (v.text r.nonce blob) = .ok blob ∧ unlocked v (v.text r.nonce blob) = blob := by
  have hunlock : v.unlock (v.text r.nonce blob) = .ok blob :=
    Vault.unlock_text r.nonce_length (hfits blob hblob)
  refine ⟨hunlock, ?_⟩
  rw [unlocked, hunlock]
  rfl

/-- With the blobs in place of the wire texts, the calls are those on the inner store alone. -/
theorem map_locked (hfits : r.Fits) :
    Prod.map id (Call.map (unlocked v)) (r.locked v) = r.plain := by
  rw [Request.locked, Prod.map_apply, Call.map_map, id, Request.plain]
  congr 1
  exact Call.map_eq_self fun blob hblob => (unlocked_text hfits hblob).2

/-- A store that draws its nonces itself serves its calls with the nonces that it draws. -/
theorem exists_requests (v : Vault) (inner : Backend σ) (calls : List (Duration × Call)) (s : σ)
    (entropy : Entropy) :
    ∃ rs : List Request, rs.map Request.plain = calls ∧
      (serve (backend v inner).reply calls (s, entropy)).1 = (serve (reply v inner) rs s).1 ∧
      (serve (backend v inner).reply calls (s, entropy)).2.1 = (serve (reply v inner) rs s).2 := by
  induction calls generalizing s entropy with
  | nil => exact ⟨[], rfl, rfl, rfl⟩
  | cons x calls ih =>
      have hnonce : (entropy.draw SealedBlob.nonceSize).1.length = SealedBlob.nonceSize := by
        have hblock : (Entropy.blocks entropy.seed 1 entropy.drawn).length = 32 := by
          rw [Entropy.blocks, List.length_append, Sha256.length_digest]
          rfl
        simp only [Entropy.draw, SealedBlob.nonceSize, List.length_take, hblock]
        omega
      let r : Request := ⟨x.1, x.2, (entropy.draw SealedBlob.nonceSize).1, hnonce⟩
      obtain ⟨rs, hplain, hreplies, hstate⟩ :=
        ih (reply v inner r s).2 (entropy.draw SealedBlob.nonceSize).2
      refine ⟨r :: rs, ?_, ?_, hstate⟩
      · rw [List.map_cons, hplain]
        rfl
      · exact congrArg (_ :: ·) hreplies

/-- What holds of the replies to calls on a sealed store. -/
structure Transparent (v : Vault) (inner : Backend σ) (s₀ : σ) (rs : List Request) : Prop where
  /-- They are the replies of the inner store alone. -/
  replies : (serve (reply v inner) rs s₀).1 = (serve inner.reply (rs.map Request.plain) s₀).1
  /-- The inner store is where the calls with wire texts bring it. -/
  passed : (serve (reply v inner) rs s₀).2 = (serve inner.reply (rs.map (·.locked v)) s₀).2
  /-- A creation that loses leaves the stored blob, if it does so in the inner store. -/
  untouched : inner.LosesQuietly → (backend v inner).LosesQuietly

/-- A creation that loses leaves what is sealed as it was. -/
theorem losesQuietly (h : inner.LosesQuietly) : (backend v inner).LosesQuietly := by
  rintro now name blob ttl ⟨s, entropy⟩ ⟨s', entropy'⟩ hcall later other
  have hinner : ∃ stored, inner.call now (.create name stored ttl) s = (.ok false, s') := by
    simp only [backend, callWith] at hcall
    split at hcall
    · next stored _ =>
        obtain ⟨hanswer, hstate⟩ := Prod.mk.inj hcall
        exact ⟨stored, Prod.ext hanswer (Prod.mk.inj hstate).1⟩
    · simp at hcall
  obtain ⟨stored, hinner⟩ := hinner
  have hread := h now name stored ttl s s' hinner later other
  simp only [backend, callWith]
  rcases hs : inner.call later (.read other) s with ⟨answer, s₁⟩
  rcases hs' : inner.call later (.read other) s' with ⟨answer', s₁'⟩
  rw [hs, hs'] at hread
  obtain rfl : answer' = answer := hread
  rcases answer' with e | _ | stored <;> rfl

/-- Over a blind store, sealing makes no difference to the caller. -/
theorem transparent (v : Vault) (hblind : inner.Blind s₀) (hfits : ∀ r ∈ rs, r.Fits) :
    Transparent v inner s₀ rs := by
  refine ⟨?_, ?_, losesQuietly⟩
  · -- The calls on the inner store alone are those that it got with each wire text replaced by
    -- its blob; the same blob may be under many texts, but each text has one blob.
    have hcalls :
        (rs.map (·.locked v)).map (Prod.map id (Call.map (unlocked v))) = rs.map Request.plain := by
      rw [List.map_map]
      exact List.map_congr_left fun r hr => map_locked (hfits r hr)
    have hreplies := hblind (unlocked v) (rs.map (·.locked v))
    rw [hcalls] at hreplies
    rw [serve_eq hfits, hreplies]
    apply List.map_congr_left
    intro reply hreply
    -- Every blob that is found was passed, so it is a wire text of a blob.
    rcases reply with (_ | stored) | _ | _ | _
    · rfl
    · obtain ⟨x, hx, hstored⟩ := hblind.mem_of_found hreply
      obtain ⟨r, hr, rfl⟩ := List.mem_map.mp hx
      obtain ⟨blob, hblob, rfl⟩ : ∃ blob, r.call.blob? = some blob ∧
        v.text r.nonce blob = stored := by
        rw [Request.locked, Call.blob?_map] at hstored
        exact Option.map_eq_some_iff.mp hstored
      obtain ⟨hunlock, hunlocked⟩ := unlocked_text (v := v) (hfits r hr) hblob
      rw [opened, hunlock, Reply.map, Option.map_some, hunlocked]
    · rfl
    · rfl
    · rfl
  · rw [serve_eq hfits]

/-- A key of zeros. -/
def zeroVault : Vault := ⟨List.replicate 32 0, by decide⟩

/-- Reads of nothing, a creation of the empty blob that wins and one that loses, a write in its
place, and reads before and after the blob expires, all under one nonce. -/
def errands : List Request :=
  let nonce := List.replicate 12 7
  [⟨.zero, .read "a", nonce, by decide⟩,
   ⟨.zero, .create "a" [] (.ofSeconds 5), nonce, by decide⟩,
   ⟨.ofSeconds 1, .create "a" [1, 2, 3] (.ofSeconds 5), nonce, by decide⟩,
   ⟨.ofSeconds 1, .read "a", nonce, by decide⟩,
   ⟨.ofSeconds 2, .write "a" [45, 45] (.ofSeconds 5), nonce, by decide⟩,
   ⟨.ofSeconds 6, .read "a", nonce, by decide⟩,
   ⟨.ofSeconds 6, .read "b", nonce, by decide⟩,
   ⟨.ofSeconds 7, .read "a", nonce, by decide⟩]

theorem transparent_errands :
    (serve (reply zeroVault Memory.backend) errands {}).1 =
      [.found none, .created true, .created false, .found (some []), .written,
        .found (some [45, 45]), .found none, .found none] ∧
    (backend zeroVault Memory.backend).LosesQuietly := by
  have h : Transparent zeroVault Memory.backend {} errands :=
    transparent zeroVault (Memory.blind _) (by decide)
  exact ⟨h.replies.trans (by decide), h.untouched Memory.losesQuietly⟩

end Keyring.Store.Sealed
