import Keyring.Proofs.Rotation.Errands

/-! # Traces of errands

What an errand asked for and what it was answered, one exchange after the other. A trace shows where
the keys come from that an errand installs: they were generated on the errand, with the size of the
rotater, or read from the store.
-/

namespace Keyring.Rotation

open Store

/-! ## Traces -/

/-- A request with its answer. -/
structure Exchange where
  request : Request
  answer : request.Answer

namespace Exchange

/-- The key that was read from the store. -/
def found? : Exchange → Option Key
  | ⟨.store (.read _), .ok (some pem)⟩ => (Key.ofPem pem).toOption
  | _ => none

/-- The size that was asked for and the key that was generated. -/
def generated? : Exchange → Option (Nat × Key)
  | ⟨.generate bits, .ok key⟩ => some (bits, key)
  | _ => none

/-- The key that was installed. -/
def installed? : Exchange → Option Key
  | ⟨.install key, _⟩ => some key
  | _ => none

/-- A key is found in an exchange that reads its document. -/
theorem found?_eq_some {x : Exchange} {key : Key} (h : x.found? = some key) :
    ∃ name pem, x = ⟨.store (.read name), .ok (some pem)⟩ ∧ Key.ofPem pem = .ok key := by
  obtain ⟨q, a⟩ := x
  cases q with
  | store c =>
      cases c with
      | read name =>
          rcases a with e | _ | pem
          · contradiction
          · contradiction
          · cases hpem : Key.ofPem pem with
            | error e => simp [found?, hpem, Except.toOption] at h
            | ok key' =>
                rw [found?, hpem] at h
                obtain rfl := Option.some.inj h
                exact ⟨name, pem, rfl, hpem⟩
      | create name blob ttl | write name blob ttl => contradiction
  | time | generate bits | current | install key' => contradiction

end Exchange

/-- A key that was generated has a modulus of the size that was asked for. -/
def Exchange.Genuine (x : Exchange) : Prop := ∀ p ∈ x.generated?, p.2.secret.modulus.log2 + 1 = p.1

/-- Requests with their answers, the first one first. -/
abbrev Trace := List Exchange

namespace Trace

/-- The keys that were read from the store. -/
def found (trace : Trace) : List Key := trace.filterMap Exchange.found?

/-- The keys that were generated, with the sizes asked for. -/
def generated (trace : Trace) : List (Nat × Key) := trace.filterMap Exchange.generated?

/-- The keys that were installed. -/
def installed (trace : Trace) : List Key := trace.filterMap Exchange.installed?

/-- The key was read from the store, or generated with the size. -/
def Has (bits : Nat) (trace : Trace) (key : Key) : Prop :=
  (bits, key) ∈ trace.generated ∨ key ∈ trace.found

variable {bits : Nat} {trace trace' : Trace} {key : Key}

/-- What one more element adds to a filtered list. -/
theorem mem_filterMap_concat {α β : Type} {f : α → Option β} {xs : List α} {x : α} {y : β} :
    y ∈ (xs ++ [x]).filterMap f ↔ y ∈ xs.filterMap f ∨ f x = some y := by
  rw [List.filterMap_append, List.mem_append]
  cases hx : f x <;> simp [hx, eq_comm]

/-- What one more exchange adds to the keys that were read. -/
theorem mem_found_concat {trace : Trace} {x : Exchange} :
    key ∈ found (trace ++ [x]) ↔ key ∈ trace.found ∨ x.found? = some key := mem_filterMap_concat

/-- What one more exchange adds to the keys that were generated. -/
theorem mem_generated_concat_iff {trace : Trace} {x : Exchange} {p : Nat × Key} :
    p ∈ generated (trace ++ [x]) ↔ p ∈ trace.generated ∨ x.generated? = some p :=
  mem_filterMap_concat

/-- A key that has just been generated is among those that were. -/
theorem mem_generated_concat (trace : Trace) (bits : Nat) (key : Key) :
    (bits, key) ∈ generated (trace ++ [⟨.generate bits, .ok key⟩]) :=
  mem_generated_concat_iff.mpr (.inr rfl)

/-- What one more exchange adds to the keys that were installed. -/
theorem mem_installed_concat {trace : Trace} {x : Exchange} :
    key ∈ installed (trace ++ [x]) ↔ key ∈ trace.installed ∨ x.installed? = some key :=
  mem_filterMap_concat

/-- A key that was installed stays so in a longer trace. -/
theorem mem_installed_mono (h : key ∈ trace.installed) (htrace : trace <+: trace') :
    key ∈ trace'.installed :=
  (htrace.filterMap _).subset h

/-- A key that was generated or read stays so in a longer trace. -/
theorem Has.mono (h : trace.Has bits key) (hlong : trace <+: trace') : trace'.Has bits key :=
  h.imp (fun h => (hlong.filterMap _).subset h) fun h => (hlong.filterMap _).subset h

/-- More exchanges follow, and all keys that are read in them are as `new` says. -/
structure Reads (trace trace' : Trace) (new : Key → Prop) : Prop where
  long : trace <+: trace'
  found : ∀ key ∈ trace'.found, key ∈ trace.found ∨ new key

variable {trace'' : Trace} {x : Exchange} {new new' : Key → Prop}

/-- One more exchange reads at most its own key. -/
theorem Reads.concat (trace : Trace) (h : ∀ key, x.found? = some key → new key) :
    trace.Reads (trace ++ [x]) new where
  long := List.prefix_append _ _
  found key hkey := (mem_found_concat.mp hkey).imp_right (h key)

/-- Exchanges that follow on others read no more than both. -/
theorem Reads.trans (h : trace.Reads trace' new) (h' : trace'.Reads trace'' new) :
    trace.Reads trace'' new where
  long := h.long.trans h'.long
  found key hkey := (h'.found key hkey).elim (h.found key) .inr

theorem Reads.mono (h : trace.Reads trace' new) (hnew : ∀ key, new key → new' key) :
    trace.Reads trace' new' where
  long := h.long
  found key hkey := (h.found key hkey).imp_right (hnew key)

/-- More exchanges follow, and no key is read in them. -/
def Quiet (trace trace' : Trace) : Prop := trace.Reads trace' fun _ => False

/-- An exchange that reads no key is quiet. -/
theorem Quiet.concat (trace : Trace) (h : x.found? = none) : trace.Quiet (trace ++ [x]) :=
  Reads.concat trace fun key hkey => by
    rw [h] at hkey
    contradiction

theorem Quiet.reads (h : trace.Quiet trace') : trace.Reads trace' new :=
  Reads.mono h fun _ h => h.elim

theorem Quiet.long (h : trace.Quiet trace') : trace <+: trace' := Reads.long h

end Trace

/-! ## What errands ask for -/

/-- The rules that errands keep, as far as traces show: calls are about the blobs of buckets, keys
are generated with the size, what is created is the document of a key that was generated, and what
is installed was generated or read. -/
def traceRules (bits : Nat) : Rules Trace where
  may trace
    | .store (.read name) => ∃ b : Bucket, name = b.blobName
    | .store (.create name blob _) =>
      (∃ b : Bucket, name = b.blobName) ∧ ∃ key, (bits, key) ∈ trace.generated ∧
        key.toPem = .ok blob
    | .store (.write _ _ _) => False
    | .generate n => n = bits
    | .install key => trace.Has bits key
    | .time | .current => True
  answers trace q a trace' := trace' = trace ++ [⟨q, a⟩]

/-- Errands call the store about the blobs of buckets only. -/
theorem traceRules_call {bits : Nat} {trace : Trace} {c : Call}
    (h : (traceRules bits).may trace (.store c)) : ∃ b : Bucket, c.name = b.blobName := by
  cases c with
  | read name => exact h
  | create name blob ttl => exact h.1
  | write name blob ttl => exact h.elim

/-- What holds of the trace of an errand. -/
structure Trace.Sound (bits : Nat) (trace : Trace) : Prop where
  genuine : ∀ p ∈ trace.generated, p.2.secret.modulus.log2 + 1 = p.1
  origin : ∀ key ∈ trace.installed, trace.Has bits key

theorem Trace.sound_nil (bits : Nat) : Trace.Sound bits [] where
  genuine _ h := by contradiction
  origin _ h := by contradiction

/-- It holds after one more exchange that the rules allow. -/
theorem Trace.Sound.concat {bits : Nat} {trace : Trace} (h : trace.Sound bits) {q : Request}
    {a : q.Answer} (hmay : (traceRules bits).may trace q) (hgenuine : Exchange.Genuine ⟨q, a⟩) :
    Trace.Sound bits (trace ++ [⟨q, a⟩]) where
  genuine p hp := (mem_generated_concat_iff.mp hp).elim (h.genuine p) (hgenuine p)
  origin key hkey := by
    have hlong : trace <+: trace ++ [⟨q, a⟩] := List.prefix_append _ _
    rcases mem_installed_concat.mp hkey with hkey | hkey
    · exact (h.origin key hkey).mono hlong
    · cases q with
      | install key' =>
          obtain rfl := Option.some.inj hkey
          exact Has.mono hmay hlong
      | time | store c | generate n | current => contradiction

/-- If a restore comes out well, all that it read from the store was installed. -/
def Errand.Installs (trace : Trace) : Errand → Outcome → Prop
  | .restore, .restored (.ok _) => ∀ key ∈ trace.found, key ∈ trace.installed
  | _, _ => True

namespace Rotater

variable {bits : Nat}

/-- A search reads at most the key it ends with. -/
theorem trace_find (b : Bucket) (trace : Trace) :
    (find b).run.Meets (traceRules bits)
      (fun o trace' => trace.Reads trace' (fun key => o = .ok (some key)) ∧
      ∀ key, o = .ok (some key) → key ∈ trace'.found) trace := by
  rw [find, Action.meets_bind]
  refine (Action.meets_call (.read b.blobName) _ trace).mpr ⟨⟨b, rfl⟩, ?_⟩
  rintro a trace' rfl
  rcases a with e | _ | pem
  · exact ⟨(Trace.Quiet.concat trace rfl).reads, fun _ h => by contradiction⟩
  · refine ⟨(Trace.Quiet.concat trace rfl).reads, fun key h => ?_⟩
    exact absurd (Except.ok.inj h) (Option.some_ne_none key).symm
  · simp only [Action.meets_bind, Action.meets_ofExcept]
    have hfound : Exchange.found? ⟨.store (.read b.blobName), .ok (some pem)⟩ =
        (Key.ofPem pem).toOption := rfl
    cases hpem : Key.ofPem pem with
    | error e =>
        rw [hpem] at hfound
        exact ⟨(Trace.Quiet.concat trace hfound).reads, fun _ h => by contradiction⟩
    | ok read =>
        rw [hpem] at hfound
        refine ⟨.concat trace fun key hkey => ?_, fun key h => Trace.mem_found_concat.mpr (.inr ?_)⟩
        · rw [← Option.some.inj (hfound.symm.trans hkey)]
        · obtain rfl := Option.some.inj (Except.ok.inj h)
          exact hfound

/-- A generation ends with a key that was generated or read, and reads no other. -/
theorem trace_generateFor {r : Rotater} (b : Bucket) (trace : Trace) :
    (r.generateFor b).run.Meets (traceRules r.keyStrength) (fun o trace' =>
      trace.Reads trace' (fun key => ∀ x, o = .ok x → key = x.key) ∧
      ∀ x, o = .ok x → trace'.Has r.keyStrength x.key) trace := by
  rw [generateFor, Action.meets_bind, Action.meets_freshKey]
  refine ⟨rfl, ?_⟩
  rintro (e | candidate) trace₁ rfl
  · exact ⟨(Trace.Quiet.concat trace rfl).reads, fun _ h => by contradiction⟩
  have hquiet₁ : trace.Quiet (trace ++ [⟨.generate r.keyStrength, .ok candidate⟩]) :=
    .concat trace rfl
  have hgenerated := Trace.mem_generated_concat trace r.keyStrength candidate
  generalize trace ++ [⟨.generate r.keyStrength, .ok candidate⟩] = trace₁ at *
  simp only [Action.meets_bind, Action.meets_ofExcept]
  cases hpem : candidate.toPem with
  | error e => exact ⟨hquiet₁.reads, fun _ h => by contradiction⟩
  | ok pem =>
      refine (Action.meets_call (.create b.blobName pem (Bucket.blobTtl r.interval)) _ trace₁).mpr
        ⟨⟨⟨b, rfl⟩, candidate, hgenerated, hpem⟩, ?_⟩
      rintro (e | won) trace₂ rfl
      · exact ⟨hquiet₁.reads.trans (Trace.Quiet.concat trace₁ rfl).reads,
          fun _ h => by contradiction⟩
      have hquiet₂ : trace₁.Quiet
          (trace₁ ++ [⟨.store (.create b.blobName pem (Bucket.blobTtl r.interval)), .ok won⟩]) :=
        .concat trace₁ rfl
      generalize trace₁ ++
        [⟨.store (.create b.blobName pem (Bucket.blobTtl r.interval)), .ok won⟩] = trace₂ at *
      cases won with
      | true =>
          refine ⟨hquiet₁.reads.trans hquiet₂.reads, fun x h => ?_⟩
          obtain rfl := Except.ok.inj h
          exact Trace.Has.mono (.inl hgenerated) hquiet₂.long
      | false =>
          simp only [Bool.false_eq_true, if_false, Action.meets_bind]
          apply (trace_find b trace₂).mono
          rintro (e | _ | winner) trace₃ ⟨hreads₃, hmem⟩
          · refine ⟨hquiet₁.reads.trans (hquiet₂.reads.trans (hreads₃.mono fun _ h => ?_)),
              fun _ h => ?_⟩ <;>
              contradiction
          · refine ⟨hquiet₁.reads.trans (hquiet₂.reads.trans (hreads₃.mono fun key h => ?_)),
              fun _ h => ?_⟩
            · exact absurd (Except.ok.inj h) (Option.some_ne_none key).symm
            · contradiction
          · refine ⟨hquiet₁.reads.trans (hquiet₂.reads.trans (hreads₃.mono fun key h x hx => ?_)),
              fun x hx => ?_⟩
            · rw [← Except.ok.inj hx]
              exact (Option.some.inj (Except.ok.inj h)).symm
            · rw [← Except.ok.inj hx]
              exact .inr (hmem winner rfl)

/-- A rotation installs at most the key that it settled on. -/
theorem trace_rotate {r : Rotater} (b : Bucket) (trace : Trace) :
    (r.rotate b).run.Meets (traceRules r.keyStrength) (fun _ trace' => trace <+: trace') trace := by
  rw [rotate, Action.meets_bind]
  apply (trace_generateFor b trace).mono
  rintro (e | x) trace₁ ⟨⟨hlong₁, -⟩, hx⟩
  · exact hlong₁
  simp only [Action.meets_bind, Action.meets_currentKey]
  refine ⟨trivial, ?_⟩
  rintro current trace₂ rfl
  have hlong₂ : trace₁ <+: trace₁ ++ [⟨.current, current⟩] := List.prefix_append _ _
  by_cases hsame : current.any (·.same x.key)
  · simp only [hsame, if_true, Action.meets_pure]
    exact hlong₁.trans hlong₂
  · simp only [hsame]
    refine ⟨(hx x rfl).mono hlong₂, ?_⟩
    rintro _ trace₃ rfl
    exact hlong₁.trans (hlong₂.trans (List.prefix_append _ _))

/-- The end of a restore installs the current key, and what else it reads. -/
theorem trace_installCurrent {r : Rotater} (b : Bucket) {current : Option Key} {trace : Trace}
    (hcurrent : ∀ key ∈ current, key ∈ trace.found) :
    (r.installCurrent b current).run.Meets (traceRules r.keyStrength) (fun o trace' =>
      trace.Reads trace' (fun key => ∀ b', o = .ok b' → key ∈ trace'.installed) ∧
      ∀ b', o = .ok b' → ∀ key ∈ current, key ∈ trace'.installed) trace := by
  cases current with
  | some key =>
      refine (Action.meets_bind (Action.install key) (fun _ => pure b) trace).mpr
        ⟨.inr (hcurrent key rfl), ?_⟩
      rintro u trace₁ rfl
      refine ⟨(Trace.Quiet.concat trace rfl).reads, ?_⟩
      rintro - - key' ⟨⟩
      exact Trace.mem_installed_concat.mpr (.inr rfl)
  | none =>
      refine (Action.meets_bind (r.generateFor b) _ trace).mpr ((trace_generateFor b trace).mono ?_)
      rintro (e | x) trace₁ ⟨hreads₁, hx⟩
      · exact ⟨hreads₁.mono fun _ _ _ h => by contradiction, fun _ h => by contradiction⟩
      refine (Action.meets_bind (Action.install x.key) (fun _ => pure b) trace₁).mpr ⟨hx x rfl, ?_⟩
      rintro u trace₂ rfl
      have hinstalled : x.key ∈ Trace.installed (trace₁ ++ [⟨.install x.key, u⟩]) :=
        Trace.mem_installed_concat.mpr (.inr rfl)
      refine ⟨(hreads₁.mono fun key hkey _ _ => ?_).trans (Trace.Quiet.concat trace₁ rfl).reads,
        fun _ _ _ h => by contradiction⟩
      rw [hkey x rfl]
      exact hinstalled

/-- A restore that comes out well installs all that it read. -/
theorem trace_restore {r : Rotater} (trace : Trace) :
    r.restore.run.Meets (traceRules r.keyStrength) (fun o trace' =>
      trace.Reads trace' fun key => ∀ b, o = .ok b → key ∈ trace'.installed) trace := by
  rw [restore, Action.meets_bind, Action.meets_now]
  refine ⟨trivial, ?_⟩
  rintro now trace₁ rfl
  have hquiet₁ : trace.Quiet (trace ++ [⟨.time, now⟩]) := .concat trace rfl
  generalize trace ++ [⟨.time, now⟩] = trace₁ at *
  simp only [bucketAt]
  generalize Bucket.containing now r.interval = b
  rw [Action.meets_bind]
  apply (trace_find b.previous trace₁).mono
  rintro (e | previous) trace₂ ⟨hreads₂, hmem₂⟩
  · exact hquiet₁.reads.trans (hreads₂.mono fun _ h => by contradiction)
  simp only [Action.meets_bind]
  apply (trace_find b trace₂).mono
  rintro (e | current) trace₃ ⟨hreads₃, hmem₃⟩
  · exact hquiet₁.reads.trans ((hreads₂.mono fun _ _ _ h => by contradiction).trans
      (hreads₃.mono fun _ h => by contradiction))
  -- Whatever was read by now is the key of the bucket before or the current one.
  have hreads : trace.Reads trace₃ fun key => previous = some key ∨ current = some key :=
    hquiet₁.reads.trans ((hreads₂.mono fun _ h => .inl (Except.ok.inj h)).trans
      (hreads₃.mono fun _ h => .inr (Except.ok.inj h)))
  have hcurrent : ∀ key ∈ current, key ∈ trace₃.found :=
    fun key hkey => hmem₃ key (congrArg Except.ok hkey)
  cases previous with
  | none =>
      apply (trace_installCurrent b hcurrent).mono
      rintro o trace₄ ⟨hreads₄, ho⟩
      refine (hreads.mono fun key hkey b' hb' => ?_).trans hreads₄
      exact ho b' hb' key (hkey.resolve_left (Option.some_ne_none key).symm)
  | some before =>
      have hbefore : before ∈ trace₃.found := (hreads₃.long.filterMap _).subset (hmem₂ before rfl)
      refine (Action.meets_bind (Action.install before)
        (fun _ => r.installCurrent b current) trace₃).mpr
        ⟨.inr hbefore, ?_⟩
      rintro u trace₄ rfl
      have hquiet₄ : trace₃.Quiet (trace₃ ++ [⟨.install before, u⟩]) := .concat trace₃ rfl
      have hinstalled₄ : before ∈ Trace.installed (trace₃ ++ [⟨.install before, u⟩]) :=
        Trace.mem_installed_concat.mpr (.inr rfl)
      generalize trace₃ ++ [⟨.install before, u⟩] = trace₄ at *
      apply (trace_installCurrent b fun key hkey => (hquiet₄.long.filterMap _).subset
        (hcurrent key hkey)).mono
      rintro o trace₅ ⟨hreads₅, ho⟩
      refine (hreads.mono fun key hkey b' hb' => ?_).trans (hquiet₄.reads.trans hreads₅)
      rcases hkey with h | h
      · obtain rfl := Option.some.inj h
        exact Trace.mem_installed_mono hinstalled₄ hreads₅.long
      · exact ho b' hb' key h

end Rotater

/-- Every errand keeps the rules, from an empty trace on. -/
theorem Errand.trace_program (r : Rotater) (e : Errand) :
    (e.program r).Meets (traceRules r.keyStrength) (fun o trace => e.Installs trace o) [] := by
  cases e with
  | find b =>
      rw [program, Program.meets_bind]
      exact (Rotater.trace_find b []).mono fun _ _ _ => trivial
  | generateFor b =>
      rw [program, Program.meets_bind]
      exact (Rotater.trace_generateFor b []).mono fun _ _ _ => trivial
  | restore =>
      rw [program, Program.meets_bind]
      apply (Rotater.trace_restore []).mono
      rintro (e | b) trace hreads
      · trivial
      · intro key hkey
        exact (hreads.found key hkey).resolve_left List.not_mem_nil b rfl
  | rotate b =>
      rw [program, Program.meets_bind]
      exact (Rotater.trace_rotate b []).mono fun _ _ _ => trivial

end Keyring.Rotation
