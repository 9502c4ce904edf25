import Keyring.Proofs.Key.Names
import Keyring.Proofs.Launch
import Keyring.Proofs.Rotation.Restore
import Keyring.Proofs.Rotation.Strength
import Keyring.Proofs.Token.Lifetime

/-! # From settings to accepted tokens

A process signs with keys that it generated with the configured size or read from the store. Its
tokens are accepted while their key is in the window, as long as the key is one that a verifier can
take. Settings bound the size of generated keys from below alone, and verifiers bound it from above:
of what a process signs with a key beyond their bound, nothing is accepted.
-/

namespace Keyring

open Rotation Store Token

/-! ## Keys that a verifier can take -/

/-- The modulus is not too large to verify under. -/
def Key.Verifiable (k : Key) : Prop := k.secret.modulus.log2 + 1 ≤ Rsa.maxVerifyBits

namespace Token

variable {signing verifying : KeyWindow} {key : Key} {claims : Json} {token : String} {now : Nat}

/-- The token of a key that is in the window of the verifier is accepted. -/
theorem verify_of_sign (hsign : sign signing claims = .ok token)
    (hcurrent : signing.current? = some key) (hkey : key.Verifiable)
    (hkept : key ∈ verifying.toList)
    (hcollision : ∀ other ∈ verifying.toList, other.NoCollision key) (hlasting : Lasting claims now)
    (hreadable : IsReadable claims) :
    Verifier.default.verify verifying now token = .ok claims.normalize := by
  obtain ⟨key', hkey', -, signature, hsignature, rfl⟩ := sign_eq_ok_iff.mp hsign
  obtain rfl := Option.some.inj (hcurrent.symm.trans hkey')
  obtain ⟨found, hfind⟩ :=
    Option.isSome_iff_exists.mp ((KeyWindow.isSome_find? verifying key.id).mpr ⟨key, hkept, rfl⟩)
  obtain ⟨hmodulus, hexponent⟩ := Key.samePublic_of_id_eq (KeyWindow.id_of_find? hfind)
    (hcollision found (List.mem_of_find?_eq_some hfind))
  rw [verify_ofClaims_of_find _ hkey hlasting.isIntegral hsignature hfind hmodulus hexponent,
    if_pos hreadable.1, (judge_default hlasting).1 hreadable.2]
  rfl

/-- The token of a key beyond the bound of verifiers is refused wherever the key is found. -/
theorem verify_of_large (hsign : sign signing claims = .ok token)
    (hcurrent : signing.current? = some key)
    (hlarge : Rsa.maxVerifyBits < key.secret.modulus.log2 + 1)
    (hfind : verifying.find? key.id = some key) (v : Verifier) :
    v.verify verifying now token = .error (.rejected .signature) := by
  obtain ⟨key', hkey', -, signature, -, rfl⟩ := sign_eq_ok_iff.mp hsign
  obtain rfl := Option.some.inj (hcurrent.symm.trans hkey')
  have hinvalid : Rsa.verify key.secret.modulus key.secret.publicExponent
      (Utf8.encode (Compact.ofClaims key claims signature).parts.message) signature = false := by
    rw [Bool.eq_false_iff]
    intro hvalid
    have hle := (Rsa.verify_iff.mp hvalid).1
    omega
  have hdecode :
      Parts.decode (Compact.ofClaims key claims signature).parts.signature = .ok signature :=
    Parts.decode_eq_ok_iff.mpr rfl
  rw [Verifier.verify_of_readHeader
    (Verifier.readHeader_text.mpr (names_ofClaims key claims signature)), hfind]
  simp only
  rw [Verifier.accept, if_neg (by rw [Verifier.algorithms_contains]; simp), hdecode]
  show (Except.mapError Fault.rejected (if (!Rsa.verify key.secret.modulus key.secret.publicExponent
    (Utf8.encode (Compact.ofClaims key claims signature).parts.message) signature) = true then _
    else _)) = _
  rw [hinvalid]
  rfl

end Token

/-! ## Processes -/

namespace Rotation.Tenant

variable {bits : Nat} {x x' : Tenant} {key : Key}

/-- The keys that a process read from the store are ones that a verifier can take. -/
def WellSupplied (x : Tenant) : Prop := ∀ trace ∈ x.traces, ∀ key ∈ trace.found, key.Verifiable

/-- What a process signs as it stands is accepted by it later, while the key is in its window. -/
def Honours (x x' : Tenant) : Prop :=
  ∀ (claims : Json) (token : String) (key : Key) (now : Nat),
    sign x.window claims = .ok token → x.window.current? = some key → key ∈ x'.window.toList →
    (∀ other ∈ x'.window.toList, other.NoCollision key) → Lasting claims now → IsReadable claims →
      Verifier.default.verify x'.window now token = .ok claims.normalize

/-- Whatever is in the window was generated with the configured size or read. -/
theorem Sound.verifiable (h : x.Sound bits) (hbits : bits ≤ Rsa.maxVerifyBits)
    (hsupplied : x.WellSupplied) : ∀ key ∈ x.window.toList, key.Verifiable := by
  intro key hkey
  obtain ⟨trace, htrace, hinstalled⟩ := h.window key hkey
  have hsound := h.of_mem htrace
  rcases hsound.origin key hinstalled with hgenerated | hfound
  · have hsize : key.secret.modulus.log2 + 1 = bits := hsound.genuine _ hgenerated
    exact (Nat.le_of_eq hsize).trans hbits
  · exact hsupplied trace htrace key hfound

/-- A process of a sound run honours the tokens of every other, if its keys are not too great to
verify with. -/
theorem Sound.honours (h : x.Sound bits) (hbits : bits ≤ Rsa.maxVerifyBits)
    (hsupplied : x.WellSupplied) (x' : Tenant) : x.Honours x' := by
  intro claims token key now hsign hcurrent hkept hcollision hlasting hreadable
  have hkey := h.verifiable hbits hsupplied key (KeyWindow.mem_of_current? hcurrent)
  exact verify_of_sign hsign hcurrent hkey hkept hcollision hlasting hreadable

end Rotation.Tenant

/-- A plan generates keys of the configured size. -/
theorem App.Plan.keyStrength_of_ofSettings {s : Settings} {plan : Plan}
    (h : ofSettings s = .ok plan) :
    Rotater.create s.rotation.interval s.rotation.keyStrength = .ok plan.rotater ∧
      plan.rotater.keyStrength = s.rotation.keyStrength := by
  obtain ⟨v, -, h⟩ := Except.bind_eq_ok_iff.mp h
  obtain ⟨r, hr, h⟩ := Except.bind_eq_ok_iff.mp h
  obtain rfl := Except.ok.inj h
  refine ⟨hr, ?_⟩
  rw [Rotater.create] at hr
  split at hr
  · split at hr
    · obtain rfl := Except.ok.inj hr
      rfl
    · contradiction
  · contradiction

/-- A process with valid settings whose keys are not too large accepts what it signed, on any store,
among any other processes and whatever happens in between. -/
theorem Settings.honours_of_validate {s : Settings} (hvalid : s.validate = .ok ())
    (hbits : s.rotation.keyStrength ≤ Rsa.maxVerifyBits) :
    ∃ plan, App.Plan.ofSettings s = .ok plan ∧
      ∀ {ι σ : Type} [DecidableEq ι] (B : ι → Backend σ) (r : ι → Rotater) (i : ι),
        r i = plan.rotater →
        ∀ (now : Duration) (server : σ) (ms ms' : List (Tenants.Move ι)),
          ((Tenants.run B r ms { now, server }).tenant i).WellSupplied →
            ((Tenants.run B r ms { now, server }).tenant i).Honours
              ((Tenants.run B r (ms ++ ms') { now, server }).tenant i) := by
  obtain ⟨plan, hplan⟩ := (validate_eq_ok_iff.mp hvalid).exists_plan
  refine ⟨plan, hplan, fun B r i hr now server ms ms' hsupplied => ?_⟩
  have hsound :=
    (Tenants.sound_run now server ms : Tenants.Sound r (Tenants.run B r ms { now, server })) i
  have hstrength := (App.Plan.keyStrength_of_ofSettings hplan).2
  rw [hr, hstrength] at hsound
  exact hsound.honours hbits hsupplied _

/-- Settings with buckets of an hour and keys of a size. -/
def Settings.hourly (bits : Nat) : Settings where
  rotation := { intervalSecs := 3600, keyStrength := bits }
  secrets :=
    { encryptionKey := some "00112233445566778899aabbccddeeff00112233445566778899aabbccddeeff" }

/-- A ledger that holds a key of 1128 bits for bucket 10. -/
def Rotation.Tenants.stocked : Ledger where
  entries := [("rsa:10", ⟨Key.mersenne65537.toPem.toOption.getD [], .ofSeconds 86400⟩)]

/-- The two processes of the run hold keys in their windows. -/
theorem Rotation.Tenants.window_stocked :
    let x := (run (fun _ => Ledger.backend) (fun _ => Peers.hourly) restoring
      { now := .ofSeconds 36000, server := stocked }).tenant ()
    x.window = .one .mersenne65537 ∧ x.traces.flatMap Trace.found = [.mersenne65537] := by
  decide +kernel

/-- A process with buckets of an hour that finds a key accepts what it signs with it. -/
theorem Settings.honours_stocked :
    (hourly 1024).validate = .ok () ∧
      ∃ plan, App.Plan.ofSettings (hourly 1024) = .ok plan ∧
        let x := (Tenants.run (fun _ => Ledger.backend) (fun _ => plan.rotater) Tenants.restoring
          { now := .ofSeconds 36000, server := Tenants.stocked }).tenant ()
        x.window = .one .mersenne65537 ∧ x.WellSupplied ∧
          ∃ token, sign x.window (claimsUntil2100 "sub" (.str "alice")) = .ok token ∧
            Verifier.default.verify x.window 0 token =
              .ok (claimsUntil2100 "sub" (.str "alice")).normalize := by
  have hvalid : (hourly 1024).validate = .ok () := by decide
  obtain ⟨plan, hplan, hhonours⟩ := honours_of_validate hvalid (by decide)
  have hrotater : plan.rotater = Peers.hourly :=
    (Except.ok.inj (App.Plan.keyStrength_of_ofSettings hplan).1).symm
  have hhonours :=
    hhonours (fun _ => Ledger.backend) (fun _ => plan.rotater) () rfl (.ofSeconds 36000)
    Tenants.stocked Tenants.restoring []
  rw [List.append_nil] at hhonours
  refine ⟨hvalid, plan, hplan, ?_⟩
  rw [hrotater] at hhonours ⊢
  obtain ⟨hwindow, hfound⟩ := Tenants.window_stocked
  have hkey := Key.isSound_of_mersenne Key.ofMersenne?_65537
  generalize (Tenants.run (fun _ => Ledger.backend) (fun _ => Peers.hourly) Tenants.restoring
    { now := .ofSeconds 36000, server := Tenants.stocked }).tenant () = x at *
  have hsupplied : x.WellSupplied := by
    intro trace htrace key hmem
    have hmem := List.mem_flatMap_of_mem htrace hmem
    rw [hfound] at hmem
    obtain rfl := List.mem_singleton.mp hmem
    exact hkey.log2_lt
  have hcurrent : x.window.current? = some .mersenne65537 := by rw [hwindow]; rfl
  have hmem : .mersenne65537 ∈ x.window.toList := KeyWindow.mem_of_current? hcurrent
  obtain ⟨token, hsign⟩ :=
    (exists_sign_iff hcurrent hkey (claimsUntil2100 "sub" (.str "alice"))).mpr
      isSome_document?_mersenne65537
  refine ⟨hwindow, hsupplied, token, hsign, ?_⟩
  refine hhonours hsupplied _ token _ 0 hsign hcurrent hmem ?_ isReadable_claimsUntil2100.1
    isReadable_claimsUntil2100.2
  intro other hother _
  rw [hwindow] at hother
  rw [List.mem_singleton.mp hother]

/-! ## Tokens that are refused at once -/

/-- A world whose clock stands at zero and whose store holds one blob and takes no other. -/
def Rotation.World.holding (name : String) (blob : Bytes) : World Unit where
  time _ := .zero
  call c s := match c with
    | .read name' => (.ok (if name' = name then some blob else none), s)
    | .create _ _ _ => (.ok false, s)
    | .write _ _ _ => (.ok (), s)
  generate _ s := (.error (.plain .keyGeneration "no entropy"), s)

/-- A process that finds the key of the first bucket comes up with it. -/
theorem App.start_holding (plan : Plan) {key : Key} {pem : Bytes} (hpem : key.toPem = .ok pem) :
    (start plan (.holding Bucket.zero.blobName pem) ()).1 = .ok ⟨plan, .one key, .zero⟩ := by
  have hbucket : plan.rotater.bucketAt Duration.zero = Bucket.zero := by
    apply Bucket.ext_value
    rw [Rotater.bucketAt, Bucket.value_containing]
    simp [Duration.millis, Duration.zero, Bucket.zero, Bucket.maxValue]
  have hprevious : Bucket.zero.previous.blobName ≠ Bucket.zero.blobName := by decide
  have hbefore :
      (World.holding Bucket.zero.blobName pem).lookUp Bucket.zero.previous () = (.ok none, ()) := by
    rw [World.lookUp, World.holding]
    simp only [if_neg hprevious]
  have hcurrent :
      (World.holding Bucket.zero.blobName pem).lookUp Bucket.zero () = (.ok (some key), ()) := by
    rw [World.lookUp, World.holding]
    simp only [if_true, Key.ofPem_toPem hpem]
    rfl
  have hrun : plan.rotater.restore.run.run (.holding Bucket.zero.blobName pem) .empty () =
      (.ok .zero, .one key, ()) := by
    rw [Rotater.run_restore, show (World.holding Bucket.zero.blobName pem).time () = .zero from rfl,
      hbucket, hbefore]
    simp only [hcurrent]
    rfl
  rw [start_eq, hrun]
  rfl

/-- A process with these valid settings comes up with some store and refuses, for this reason, what
it has just signed. -/
def Settings.Disowns (s : Settings) (claims : Json) (reason : String) : Prop :=
  s.validate = .ok () ∧ Lasting claims 0 ∧
    ∃ plan app token, App.Plan.ofSettings s = .ok plan ∧
    (∃ w : World Unit, (App.start plan w ()).1 = .ok app) ∧
      sign app.window claims = .ok token ∧
      (Verifier.default.verify app.window 0 token).mapError Fault.error =
        .error (.plain .token reason)

/-- A process comes up with any key that has a document. -/
theorem Settings.disowns_of_verify {s : Settings} (hvalid : s.validate = .ok ()) (key : Key)
    (hdocument : key.document?.isSome) {claims : Json} (hlasting : Lasting claims 0)
    {token reason : String} (hsign : sign (.one key) claims = .ok token)
    (hverify : (Verifier.default.verify (.one key) 0 token).mapError Fault.error =
      .error (.plain .token reason)) : s.Disowns claims reason := by
  obtain ⟨plan, hplan⟩ := (validate_eq_ok_iff.mp hvalid).exists_plan
  obtain ⟨pem, hpem⟩ := Key.exists_toPem hdocument
  exact ⟨hvalid, hlasting, plan, ⟨plan, .one key, .zero⟩, token, hplan,
    ⟨_, App.start_holding plan hpem⟩, hsign, hverify⟩

/-! ### A key of 4484 bits -/

namespace Key

/-- By the test of Lucas and Lehmer. -/
theorem prime_mersenne_2203 : (mersenne 2203).Prime :=
  lucas_lehmer_sufficiency 2203 (by norm_num) (by norm_num)

/-- By the same test. -/
theorem prime_mersenne_2281 : (mersenne 2281).Prime :=
  lucas_lehmer_sufficiency 2281 (by norm_num) (by norm_num)

/-- The key that is generated of two primes. -/
def ofPrimes? (p q : Nat) : Option Key :=
  match Rsa.ofPrimes p q with
  | .ok (some secret) => some ⟨secret⟩
  | _ => none

/-- A key of primes is made by the generator from them. -/
theorem ofPrimes?_eq_some {p q : Nat} {k : Key} (h : ofPrimes? p q = some k) :
    Rsa.ofPrimes p q = .ok (some k.secret) := by
  rw [ofPrimes?] at h
  split at h
  · next secret hprimes =>
      obtain rfl := Option.some.inj h
      exact hprimes
  · contradiction

/-- The primes make a key with the usual exponent. -/
theorem isSome_giant : (ofPrimes? (mersenne 2203) (mersenne 2281)).isSome := by decide +kernel

/-- A key of 4484 bits. -/
def giant : Key := (ofPrimes? (mersenne 2203) (mersenne 2281)).get isSome_giant

/-- The generator makes the key from its primes. -/
theorem ofPrimes_giant : Rsa.ofPrimes (mersenne 2203) (mersenne 2281) = .ok (some giant.secret) :=
  ofPrimes?_eq_some (Option.some_get _).symm

attribute [irreducible] giant

/-- The key can be written as a document. -/
theorem isSome_document?_giant : giant.document?.isSome := by decide +kernel

/-- Its factors are different primes. -/
theorem hasPrimes_giant : giant.secret.HasPrimes := by
  obtain ⟨-, hp, hq⟩ := Rsa.factors_of_ofPrimes ofPrimes_giant
  refine ⟨?_, ?_, ?_⟩
  · rw [hp]
    exact prime_mersenne_2203
  · rw [hq]
    exact prime_mersenne_2281
  · rw [hp, hq]
    exact (mersenne_lt_mersenne.mpr (by norm_num)).ne

/-- The key has 4484 bits, which is more than a verifier takes. -/
theorem log2_giant : giant.secret.modulus.log2 + 1 = 4484 := by
  obtain ⟨hmodulus, -, -⟩ := Rsa.factors_of_ofPrimes ofPrimes_giant
  rw [hmodulus]
  exact log2_mersenne_mul (by decide) (by decide)

end Key

/-- A process that finds a key of the size it was configured with signs with it, and refuses the
token. -/
theorem Settings.disowns_giant : (hourly 4484).Disowns (claimsUntil2100 "sub" (.str "alice"))
    "Token rejected: InvalidSignature" := by
  have hsize : 62 ≤ Key.giant.secret.size := by
    have hlog2 := Key.log2_giant
    rw [Rsa.PrivateKey.size]
    omega
  have hcurrent : (KeyWindow.one .giant).current? = some .giant := rfl
  have hfind : (KeyWindow.one .giant).find? Key.giant.id = some .giant :=
    KeyWindow.find?_of_mem (List.pairwise_singleton _ _) (KeyWindow.mem_of_current? hcurrent)
  have hlarge : Rsa.maxVerifyBits < Key.giant.secret.modulus.log2 + 1 := by
    rw [Key.log2_giant]
    decide
  obtain ⟨signature, hsignature⟩ := Rsa.PrivateKey.exists_sign Key.hasPrimes_giant hsize
    (Utf8.encode (signedText (headerOf .giant) (claimsUntil2100 "sub" (.str "alice"))))
  have hsign := sign_eq_ok_iff.mpr
    ⟨.giant, hcurrent, Key.isSome_document?_giant, signature, hsignature, rfl⟩
  refine disowns_of_verify (by decide) .giant Key.isSome_document?_giant
    isReadable_claimsUntil2100.1 hsign ?_
  rw [verify_of_large hsign hcurrent hlarge hfind]
  rfl

/-- Claims that no verifier reads are rejected by every process. -/
theorem Settings.disowns_of_refusedAtOnce {claims : Json} (h : RefusedAtOnce claims) :
    (hourly 1128).Disowns claims "Token rejected: JSON error" := by
  obtain ⟨hlasting, token, hsign, hanswer⟩ := h
  exact disowns_of_verify (by decide) .mersenne65537 isSome_document?_mersenne65537 hlasting
    hsign hanswer

/-- Processes with valid settings refuse what they signed: with a key of two primes that is
larger than a verifier can take, whatever the claims, and with any key if the claims cannot be
read back. -/
theorem Settings.not_honours_of_validate :
    (Key.giant.secret.HasPrimes ∧ IsReadable (claimsUntil2100 "sub" (.str "alice")) ∧
      (hourly 4484).Disowns (claimsUntil2100 "sub" (.str "alice"))
        "Token rejected: InvalidSignature") ∧
    (hourly 1128).Disowns (claimsUntil2100 "sub" (.arr [.str "alice"]))
      "Token rejected: JSON error" ∧
    (hourly 1128).Disowns (claimsUntil2100 "nbf" (.arr [.int 0])) "Token rejected: JSON error" ∧
    (hourly 1128).Disowns (claimsUntil2100 "a" (nested 126)) "Token rejected: JSON error" := by
  obtain ⟨hsubject, hnotBefore, hnested⟩ := refusedAtOnce_unreadable
  exact ⟨⟨Key.hasPrimes_giant, isReadable_claimsUntil2100.2, disowns_giant⟩,
    disowns_of_refusedAtOnce hsubject, disowns_of_refusedAtOnce hnotBefore,
    disowns_of_refusedAtOnce hnested⟩

end Keyring
