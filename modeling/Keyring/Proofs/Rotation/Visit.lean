import Keyring.Proofs.Rotation.Errands
import Keyring.Proofs.Rotation.Loop

/-! # The exact effect of a restore

A process restores its window while others create blobs. Between any two of its requests the others
may act, its clock may be set and the time of the store may pass, but nothing that is live expires.
If the restore comes out well, then what it asked for, what it changed and what it installed is
determined by what it found.
-/

namespace Keyring.Store.Ledger

variable {l l' : Ledger} {now later ttl : Duration} {name other : String} {blob : Bytes}

/-- The key that is stored for a bucket at a time, unless what is stored there is no key. -/
def keyOf (l : Ledger) (now : Duration) (b : Bucket) : Except Error (Option Key) :=
  match l.live? now b.blobName with
  | some pem => (Key.ofPem pem).map some
  | none => .ok none

/-- A blob is live if it is stored and has not expired. -/
theorem live?_eq_some : l.live? now name = some blob ↔
    ∃ e, l.get? name = some e ∧ now < e.expiry ∧ e.blob = blob := by
  rw [live?]
  cases l.get? name with
  | none => simp
  | some e =>
      by_cases h : now < e.expiry
      · simp [h]
      · simp [h]

/-- What is live is stored. -/
theorem mem_of_live (h : (l.live? now name).isSome) : name ∈ l.entries.map (·.1) := by
  obtain ⟨blob, hblob⟩ := Option.isSome_iff_exists.mp h
  obtain ⟨e, he, -⟩ := live?_eq_some.mp hblob
  rw [get?, Option.map_eq_some_iff] at he
  obtain ⟨p, hp, -⟩ := he
  have hname := List.find?_some hp
  rw [decide_eq_true_eq] at hname
  exact hname ▸ List.mem_map_of_mem (List.mem_of_find?_eq_some hp)

/-- A name that is live throughout keeps its blob as long as its entry stays. -/
theorem live?_of_get?_eq (h : l.live? now name = some blob) (hget : l'.get? name = l.get? name)
    (hlive : (l'.live? later name).isSome) : l'.live? later name = some blob := by
  obtain ⟨blob', hlive⟩ := Option.isSome_iff_exists.mp hlive
  obtain ⟨e, he, -, rfl⟩ := live?_eq_some.mp h
  obtain ⟨e', he', hlater, rfl⟩ := live?_eq_some.mp hlive
  obtain rfl := Option.some.inj (he'.symm.trans (hget.trans he))
  exact hlive

/-- A creation touches no other name. -/
theorem get?_create_of_ne (h : other ≠ name) (blob : Bytes) (ttl : Duration) :
    (l.call now (.create name blob ttl)).2.get? other = l.get? other := by
  rw [call]
  split
  · rfl
  · rw [store, get?_put, if_neg h.symm]

/-- A creation touches no live name. -/
theorem get?_create_of_live (h : (l.live? now other).isSome) (name : String) (blob : Bytes)
    (ttl : Duration) : (l.call now (.create name blob ttl)).2.get? other = l.get? other := by
  by_cases hname : other = name
  · rw [call, ← hname, if_pos h]
  · exact get?_create_of_ne hname blob ttl

/-- A creation leaves live blobs as they are. -/
theorem live?_create_of_live (h : l.live? now other = some blob) (name : String) (blob' : Bytes)
    (ttl : Duration) : (l.call now (.create name blob' ttl)).2.live? now other = some blob := by
  have hget := get?_create_of_live (Option.isSome_of_mem h) name blob' ttl
  obtain ⟨e, he, hlive⟩ := live?_eq_some.mp h
  exact live?_eq_some.mpr ⟨e, hget.trans he, hlive⟩

/-- What is live after a creation that was accepted is what was created. -/
theorem live?_create (h : l.call now (.create name blob ttl) = (.ok true, l'))
    (hlive : (l'.live? now name).isSome) : l'.live? now name = some blob := by
  rw [call] at h
  split at h
  · exact absurd (Except.ok.inj (Prod.mk.inj h).1) Bool.false_ne_true
  · obtain rfl := (Prod.mk.inj h).2
    obtain ⟨blob', hlive⟩ := Option.isSome_iff_exists.mp hlive
    obtain ⟨e, he, -, rfl⟩ := live?_eq_some.mp hlive
    rw [store, get?_put, if_pos rfl] at he
    obtain rfl := Option.some.inj he
    exact hlive

end Keyring.Store.Ledger

namespace Keyring.Rotation

open Store

/-! ## A process among others -/

/-- A call that a process made: the time of the store then, and the ledger before and after. -/
structure Access where
  call : Call
  time : Duration
  before : Ledger
  after : Ledger

/-- Where a process stands among others. -/
structure Standing where
  /-- What its clock shows. -/
  clock : Duration
  /-- The time of the store. -/
  now : Duration
  shared : Shared
  own : Own := {}
  /-- What it read off its clock, the first reading first. -/
  readings : List Duration := []
  /-- Its calls, the first one first. -/
  accesses : List Access := []

namespace Standing

/-- The live blob of a name. -/
def live? (g : Standing) (name : String) : Option Bytes := g.shared.ledger.live? g.now name

/-- The key that is stored for a bucket. -/
def keyOf (g : Standing) (b : Bucket) : Except Error (Option Key) := g.shared.ledger.keyOf g.now b

/-- After a request was answered, with a record of it. -/
def record (g : Standing) (q : Request) (s : Shared) (o : Own) : Standing :=
  { g with
    shared := s
    own := o
    readings := match q with
      | .time => g.readings ++ [g.clock]
      | _ => g.readings
    accesses := match q with
      | .store c => g.accesses ++ [⟨c, g.now, g.shared.ledger, s.ledger⟩]
      | _ => g.accesses }

/-- The time at which a request is answered: that of the process's clock, or that of the store. -/
def timeOf (g : Standing) : Request → Duration
  | .time => g.clock
  | _ => g.now

/-- The answer to a request, and where the process stands then; `none` for a reply that is none to
the request. -/
def answer? (interval : Duration) (g : Standing) (q : Request) (reply : Reply) :
    Option (q.Answer × Standing) :=
  (reply.answer? interval (g.timeOf q) q (g.shared, g.own)).map fun (a, s, o) => (a, g.record q s o)

end Standing

/-- The name that a creation is for which a reply carries out. -/
def Reply.creates? : Request → Reply → Option String
  | .store (.create name _ _), .served => some name
  | .store (.create name _ _), .lost _ => some name
  | _, _ => none

/-- A process on its restore. -/
structure Visit where
  standing : Standing
  rest : Program (Except Error Bucket)

/-- What may happen. -/
inductive Visit.Move
  /-- The process's clock shows another time. -/
  | clock (clock : Duration)
  /-- The store comes to another time. -/
  | pass (now : Duration)
  /-- Another process creates a blob. -/
  | create (name : String) (blob : Bytes) (ttl : Duration)
  /-- The request that the process waits with is answered. -/
  | answer (reply : Reply)

namespace Visit

/-- A process that starts with an empty window. -/
def begin (r : Rotater) (clock now : Duration) (l : Ledger) : Visit :=
  ⟨{ clock, now, shared := { ledger := l } }, r.restore.run⟩

/-- What a move leads to, if it can be made. -/
def move (interval : Duration) (v : Visit) : Move → Option Visit
  | .clock clock => some { v with standing := { v.standing with clock } }
  | .pass now => some { v with standing := { v.standing with now } }
  | .create name blob ttl =>
    let shared := v.standing.shared.after v.standing.now (.create name blob ttl)
    some { v with standing := { v.standing with shared } }
  | .answer reply =>
    match v.rest with
    | .done _ => none
    | .ask q next =>
      match v.standing.answer? interval q reply with
      | some (a, standing) => some ⟨standing, next a⟩
      | none => none

/-- The name of the creation that a move carries out. -/
def creates? (v : Visit) : Move → Option String
  | .create name _ _ => some name
  | .answer reply =>
    match v.rest with
    | .ask q _ => reply.creates? q
    | .done _ => none
  | _ => none

/-- Nothing expires in a move: what is live stays live, and what a creation is for is live then. -/
def Lasting (v : Visit) (m : Move) (v' : Visit) : Prop :=
  ∀ name, (v.standing.live? name).isSome ∨ v.creates? m = some name →
    (v'.standing.live? name).isSome

end Visit

/-! ## What a restore adds -/

namespace Access

/-- The call asked for a bucket's key, changed nothing and was answered with what was stored. -/
structure Finds (a : Access) (b : Bucket) (found : Option Key) : Prop where
  call : a.call = .read b.blobName
  after : a.after = a.before
  found : a.before.keyOf a.time b = .ok found

/-- The call left all other names and all live blobs as they were. -/
structure Spares (a : Access) (name : String) : Prop where
  others : ∀ other ≠ name, a.after.get? other = a.before.get? other
  live : ∀ other blob, a.before.live? a.time other = some blob →
    a.after.live? a.time other = some blob

/-- The call tried to create a bucket's blob. -/
structure Creates (a : Access) (b : Bucket) (ttl : Duration) : Prop where
  call : ∃ pem, a.call = .create b.blobName pem ttl
  spares : a.Spares b.blobName

/-- A search changes nothing. -/
theorem Finds.spares {a : Access} {b : Bucket} {found : Option Key} (h : a.Finds b found)
    (name : String) : a.Spares name where
  others _ _ := by rw [h.after]
  live _ _ hlive := by rw [h.after]; exact hlive

end Access

namespace Standing

variable {g g' g'' : Standing} {as as' : List Access} {keys keys' : List Key} {b : Bucket}
  {key : Key}

/-- Calls were made and keys were installed; every live blob is as it was. -/
structure Adds (g g' : Standing) (as : List Access) (keys : List Key) : Prop where
  window : g'.own.window = keys.foldl KeyWindow.rotate g.own.window
  readings : g'.readings = g.readings
  accesses : g'.accesses = g.accesses ++ as
  live : ∀ name blob, g.live? name = some blob → g'.live? name = some blob

/-- A standing adds nothing to itself. -/
theorem Adds.refl (g : Standing) : g.Adds g [] [] where
  window := rfl
  readings := rfl
  accesses := (List.append_nil _).symm
  live _ _ h := h

/-- What is added in two steps is added one after the other. -/
theorem Adds.trans (h : g.Adds g' as keys) (h' : g'.Adds g'' as' keys') :
    g.Adds g'' (as ++ as') (keys ++ keys') where
  window := by rw [h'.window, h.window, List.foldl_append]
  readings := h'.readings.trans h.readings
  accesses := by rw [h'.accesses, h.accesses, List.append_assoc]
  live name blob hlive := h'.live name blob (h.live name blob hlive)

/-- The key of a bucket is in its blob, if the blob is live. -/
theorem keyOf_of_live {pem : Bytes} (h : g.live? b.blobName = some pem) :
    g.keyOf b = (Key.ofPem pem).map some := by
  rw [keyOf, Ledger.keyOf, show g.shared.ledger.live? g.now b.blobName = some pem from h]

/-- A bucket without a live blob has no key. -/
theorem keyOf_of_not_live (h : g.live? b.blobName = none) : g.keyOf b = .ok none := by
  rw [keyOf, Ledger.keyOf, show g.shared.ledger.live? g.now b.blobName = none from h]

/-- A bucket that has a key has a live blob. -/
theorem exists_live_of_keyOf (h : g.keyOf b = .ok (some key)) :
    ∃ pem, g.live? b.blobName = some pem := by
  cases hlive : g.live? b.blobName with
  | none =>
      rw [keyOf_of_not_live hlive] at h
      exact absurd (Except.ok.inj h).symm (Option.some_ne_none key)
  | some pem => exact ⟨pem, rfl⟩

/-- A key that is stored stays where what is live stays. -/
theorem keyOf_mono (hlive : ∀ name blob, g.live? name = some blob → g'.live? name = some blob)
    (hkey : g.keyOf b = .ok (some key)) : g'.keyOf b = .ok (some key) := by
  obtain ⟨pem, hpem⟩ := exists_live_of_keyOf hkey
  rw [keyOf_of_live (hlive _ _ hpem), ← keyOf_of_live hpem, hkey]

/-- A bucket keeps its key. -/
theorem Adds.keyOf (h : g.Adds g' as keys) (hkey : g.keyOf b = .ok (some key)) :
    g'.keyOf b = .ok (some key) :=
  keyOf_mono h.live hkey

end Standing

/-- The rules among others: before the answer comes they may have created blobs, but nothing
expires. -/
def visitRules (interval : Duration) : Rules Standing where
  may _ _ := True
  answers g q a g' := ∃ h reply, g.Adds h [] [] ∧ h.answer? interval q reply = some (a, g') ∧
    ∀ name, reply.creates? q = some name → (g'.live? name).isSome

section Answers

variable {interval : Duration} {g g' : Standing} {b : Bucket}

/-- A call is carried out, or it fails. -/
theorem visit_store {c : Call} {a : Request.Answer (.store c)}
    (hans : (visitRules interval).answers g (.store c) a g') :
    (∃ err, a = .error err) ∨ ∃ h, g.Adds h [] [] ∧ a = (h.shared.ledger.call h.now c).1 ∧
      g' = h.record (.store c) (h.shared.after h.now c) h.own ∧
      ∀ name blob ttl, c = .create name blob ttl → (g'.live? name).isSome := by
  obtain ⟨h, reply, hadds, hanswer, hlasting⟩ := hans
  cases reply with
  | served =>
      obtain ⟨rfl, rfl⟩ := Prod.mk.inj (Option.some.inj hanswer)
      refine .inr ⟨h, hadds, rfl, rfl, ?_⟩
      rintro name blob ttl rfl
      exact hlasting name rfl
  | refused err => exact .inl ⟨err, (Prod.mk.inj (Option.some.inj hanswer)).1.symm⟩
  | lost err => exact .inl ⟨err, (Prod.mk.inj (Option.some.inj hanswer)).1.symm⟩
  | generated r => contradiction

/-- A generation fails or changes nothing. -/
theorem visit_generate {bits : Nat} {a : Except Error Key}
    (hans : (visitRules interval).answers g (.generate bits) a g') :
    (∃ err, a = .error err) ∨ g.Adds g' [] [] := by
  obtain ⟨h, reply, hadds, hanswer, -⟩ := hans
  cases reply with
  | generated r =>
      cases r with
      | error err => exact .inl ⟨err, (Prod.mk.inj (Option.some.inj hanswer)).1.symm⟩
      | ok key =>
          obtain rfl := (Prod.mk.inj (Option.some.inj hanswer)).2
          exact .inr ⟨hadds.window, hadds.readings, hadds.accesses, hadds.live⟩
  | served | refused err | lost err => contradiction

/-- The clock is read, which is written down. -/
theorem visit_time {t : Duration} (hans : (visitRules interval).answers g .time t g') :
    g'.own.window = g.own.window ∧ g'.readings = g.readings ++ [t] ∧ g'.accesses = g.accesses := by
  obtain ⟨h, reply, hadds, hanswer, -⟩ := hans
  cases reply with
  | served =>
      obtain ⟨rfl, rfl⟩ := Prod.mk.inj (Option.some.inj hanswer)
      exact ⟨hadds.window, congrArg (· ++ [h.clock]) hadds.readings,
        hadds.accesses.trans (List.append_nil _)⟩
  | refused err | lost err | generated r => contradiction

/-- An installation adds its key to the window and calls nothing. -/
theorem visit_install {key : Key} {u : Unit}
    (hans : (visitRules interval).answers g (.install key) u g') : g.Adds g' [] [key] := by
  obtain ⟨h, reply, hadds, hanswer, -⟩ := hans
  cases reply with
  | served =>
      obtain rfl := (Prod.mk.inj (Option.some.inj hanswer)).2
      exact ⟨congrArg (·.rotate key) hadds.window, hadds.readings, hadds.accesses, hadds.live⟩
  | refused err | lost err | generated r => contradiction

/-- A read is answered with what is stored then. -/
theorem visit_read {a : Except Error (Option Bytes)}
    (hans : (visitRules interval).answers g (.store (.read b.blobName)) a g') :
    (∃ err, a = .error err) ∨ a = .ok (g'.live? b.blobName) ∧
      ∃ access, g.Adds g' [access] [] ∧ access.call = .read b.blobName ∧
      access.after = access.before ∧
        access.before.keyOf access.time b = g'.keyOf b := by
  rcases visit_store hans with herr | ⟨h, hadds, ha, rfl, -⟩
  · exact .inl herr
  · refine .inr ⟨ha, ⟨.read b.blobName, h.now, h.shared.ledger, h.shared.ledger⟩, ?_, rfl, rfl, rfl⟩
    refine ⟨hadds.window, hadds.readings, ?_, hadds.live⟩
    rw [← List.append_nil g.accesses, ← hadds.accesses]
    rfl

/-- A creation spares what is live. If it is accepted, the blob is live then. -/
theorem visit_create {a : Except Error Bool} {pem : Bytes} {ttl : Duration}
    (hans : (visitRules interval).answers g (.store (.create b.blobName pem ttl)) a g') :
    (∃ err, a = .error err) ∨ (a = .ok true → g'.live? b.blobName = some pem) ∧
      ∃ access, g.Adds g' [access] [] ∧ access.Creates b ttl := by
  rcases visit_store hans with herr | ⟨h, hadds, ha, rfl, hlasting⟩
  · exact .inl herr
  · let after := (h.shared.ledger.call h.now (.create b.blobName pem ttl)).2
    refine .inr ⟨fun htrue => ?_, ⟨.create b.blobName pem ttl, h.now, h.shared.ledger, after⟩, ?_,
      ⟨pem, rfl⟩, ?_⟩
    · exact Ledger.live?_create (Prod.ext (ha.symm.trans htrue) rfl) (hlasting _ _ _ rfl)
    · refine ⟨hadds.window, hadds.readings, ?_, fun name blob hblob => ?_⟩
      · rw [← List.append_nil g.accesses, ← hadds.accesses]
        rfl
      · exact Ledger.live?_create_of_live (hadds.live name blob hblob) _ _ _
    · exact ⟨fun other hne => Ledger.get?_create_of_ne hne _ _,
        fun other blob hblob => Ledger.live?_create_of_live hblob _ _ _⟩

end Answers

/-! ## Programs -/

variable {interval : Duration} {g g' : Standing} {b : Bucket}

/-- A search that comes out well makes one call and ends with what is stored. -/
theorem visit_find (b : Bucket) (g : Standing) :
    (Rotater.find b).run.Meets (visitRules interval) (fun o g' => ∀ found, o = .ok found →
      ∃ access, g.Adds g' [access] [] ∧ access.Finds b found ∧ g'.keyOf b = .ok found) g := by
  rw [Rotater.find, Action.meets_bind]
  refine (Action.meets_call (.read b.blobName) _ g).mpr ⟨trivial, fun a g' ha => ?_⟩
  rcases visit_read ha with ⟨err, rfl⟩ | ⟨rfl, access, hadds, hcall, hafter, hkey⟩
  · exact fun found h => by contradiction
  have hfinds (found : Option Key) (h : g'.keyOf b = .ok found) :
      ∃ access, g.Adds g' [access] [] ∧ access.Finds b found ∧ g'.keyOf b = .ok found :=
    ⟨access, hadds, ⟨hcall, hafter, hkey.trans h⟩, h⟩
  cases hlive : g'.live? b.blobName with
  | none =>
      rintro found ⟨⟩
      exact hfinds none (Standing.keyOf_of_not_live hlive)
  | some pem =>
      simp only [Action.meets_bind, Action.meets_ofExcept]
      cases hpem : Key.ofPem pem with
      | error err => exact fun found h => by contradiction
      | ok key =>
          rintro found ⟨⟩
          refine hfinds (some key) ?_
          rw [Standing.keyOf_of_live hlive, hpem]
          rfl

/-- The calls by which a bucket's key was settled that was not stored before: a creation, and if it
lost, the search for the winner. -/
def Settling (b : Bucket) (ttl : Duration) (key : Key) (as : List Access) : Prop :=
  ∃ creation, creation.Creates b ttl ∧
    (as = [creation] ∨ ∃ search, search.Finds b (some key) ∧ as = [creation, search])

/-- A generation that comes out well tries once to create the bucket's blob, and ends with the key
that is stored then. -/
theorem visit_generateFor (r : Rotater) (b : Bucket) (g : Standing) :
    (r.generateFor b).run.Meets (visitRules interval) (fun o g' => ∀ x, o = .ok x →
      ∃ as, g.Adds g' as [] ∧ Settling b (Bucket.blobTtl r.interval) x.key as ∧
      g'.keyOf b = .ok (some x.key)) g := by
  rw [Rotater.generateFor, Action.meets_bind, Action.meets_freshKey]
  refine ⟨trivial, fun a g₁ ha => ?_⟩
  rcases visit_generate ha with ⟨err, rfl⟩ | hadds₁
  · exact fun x h => by contradiction
  rcases a with err | candidate
  · exact fun x h => by contradiction
  simp only [Action.meets_bind, Action.meets_ofExcept]
  cases hpem : candidate.toPem with
  | error err => exact fun x h => by contradiction
  | ok pem =>
      refine (Action.meets_call (.create b.blobName pem (Bucket.blobTtl r.interval)) _ g₁).mpr
        ⟨trivial, fun a g₂ ha => ?_⟩
      rcases visit_create ha with ⟨err, rfl⟩ | ⟨hwon, creation, hadds₂, hcreates⟩
      · exact fun x h => by contradiction
      have hadds := hadds₁.trans hadds₂
      rcases a with err | _ | _
      · exact fun x h => by contradiction
      · -- The creation lost, and what is stored now is the winner's key.
        simp only [Bool.false_eq_true, if_false, Action.meets_bind]
        apply (visit_find b g₂).mono
        rintro (err | _ | winner) g₃ hfound
        · exact fun x h => by contradiction
        · exact fun x h => by contradiction
        · obtain ⟨search, hadds₃, hfinds, hkey⟩ := hfound (some winner) rfl
          rintro x ⟨⟩
          exact ⟨_, hadds.trans hadds₃, ⟨creation, hcreates, .inr ⟨search, hfinds, rfl⟩⟩, hkey⟩
      · rintro x ⟨⟩
        refine ⟨_, hadds, ⟨creation, hcreates, .inl rfl⟩, ?_⟩
        rw [Standing.keyOf_of_live (hwon rfl), Key.ofPem_toPem hpem]
        rfl

/-- The end of a restore that comes out well installs the key that is stored then. -/
theorem visit_installCurrent (r : Rotater) (b : Bucket) {current : Option Key} {g : Standing}
    (hcurrent : ∀ key ∈ current, g.keyOf b = .ok (some key)) :
    (r.installCurrent b current).run.Meets (visitRules interval) (fun o g' =>
      ∀ b', o = .ok b' → b' = b ∧ ∃ key as, g.Adds g' as [key] ∧ g'.keyOf b = .ok (some key) ∧
        (current = some key ∧ as = [] ∨
          current = none ∧ Settling b (Bucket.blobTtl r.interval) key as)) g := by
  cases current with
  | some key =>
      refine (Action.meets_bind (Action.install key) (fun _ => pure b) g).mpr
        ⟨trivial, fun _ g₁ ha => ?_⟩
      have hadds₁ := visit_install ha
      rintro b' ⟨⟩
      exact ⟨rfl, key, [], hadds₁, hadds₁.keyOf (hcurrent key rfl), .inl ⟨rfl, rfl⟩⟩
  | none =>
      refine (Action.meets_bind (r.generateFor b) _ g).mpr ((visit_generateFor r b g).mono ?_)
      rintro (err | x) g₁ hx
      · exact fun b' h => by contradiction
      obtain ⟨as, hadds₁, hsettling, hkey⟩ := hx x rfl
      refine (Action.meets_bind (Action.install x.key) (fun _ => pure b) g₁).mpr
        ⟨trivial, fun _ g₂ ha => ?_⟩
      have hadds₂ := visit_install ha
      have hadds := hadds₁.trans hadds₂
      rw [List.append_nil] at hadds
      rintro b' ⟨⟩
      exact ⟨rfl, x.key, as, hadds, hadds₂.keyOf hkey, .inr ⟨rfl, hsettling⟩⟩

/-! ## Restores -/

/-- What a restore for a bucket comes to that found `previous` for the bucket before and ended with
`key`. -/
structure Standing.Exact (r : Rotater) (b : Bucket) (previous : Option Key) (key : Key)
    (g : Standing) : Prop where
  /-- The bucket is that of the clock, which was read once. -/
  bucket : ∃ t, g.readings = [t] ∧ b = r.bucketAt t
  /-- Both keys were looked for, and nothing else was called if both were stored. -/
  calls : ∃ first second rest, g.accesses = first :: second :: rest ∧
    first.Finds b.previous previous ∧
    (second.Finds b (some key) ∧ rest = [] ∨
      second.Finds b none ∧ Settling b (Bucket.blobTtl r.interval) key rest)
  /-- Each call left all other names and all live blobs as they were. -/
  spares : ∀ a ∈ g.accesses, a.Spares b.blobName
  window : g.own.window.toList = previous.toList ++ [key]
  stored : g.keyOf b = .ok (some key)

/-- Settling on a key touches no name but that of the bucket. -/
theorem Settling.spares {ttl : Duration} {key : Key} {as : List Access}
    (h : Settling b ttl key as) : ∀ a ∈ as, a.Spares b.blobName := by
  obtain ⟨creation, hcreation, rfl | ⟨search, hsearch, rfl⟩⟩ := h
  · intro a ha
    obtain rfl := List.mem_singleton.mp ha
    exact hcreation.spares
  · intro a ha
    rcases List.mem_cons.mp ha with rfl | ha
    · exact hcreation.spares
    · obtain rfl := List.mem_singleton.mp ha
      exact hsearch.spares b.blobName

/-- A restore that comes out well has its exact effect, from an empty window on. -/
theorem visit_restore (r : Rotater) {g : Standing} (hwindow : g.own.window = .empty)
    (hreadings : g.readings = []) (haccesses : g.accesses = []) :
    r.restore.run.Meets (visitRules interval) (fun o g' => ∀ b, o = .ok b →
      ∃ previous key, g'.Exact r b previous key) g := by
  rw [Rotater.restore, Action.meets_bind, Action.meets_now]
  refine ⟨trivial, fun t g₁ ha => ?_⟩
  obtain ⟨hwindow₁, hreadings₁, haccesses₁⟩ := visit_time ha
  rw [hwindow] at hwindow₁
  rw [hreadings, List.nil_append] at hreadings₁
  rw [haccesses] at haccesses₁
  have hbucket : ∃ t', g₁.readings = [t'] ∧ r.bucketAt t = r.bucketAt t' := ⟨t, hreadings₁, rfl⟩
  simp only [Rotater.bucketAt] at hbucket ⊢
  generalize Bucket.containing t r.interval = b at hbucket ⊢
  rw [Action.meets_bind]
  apply (visit_find b.previous g₁).mono
  rintro (err | previous) g₂ hprevious
  · exact fun b h => by contradiction
  obtain ⟨first, hadds₂, hfirst, -⟩ := hprevious previous rfl
  simp only [Action.meets_bind]
  apply (visit_find b g₂).mono
  rintro (err | current) g₃ hcurrent
  · exact fun b h => by contradiction
  obtain ⟨second, hadds₃, hsecond, hkey⟩ := hcurrent current rfl
  have hadds := hadds₂.trans hadds₃
  -- What is installed last is the bucket's own key, after that of the bucket before if there is
  -- one.
  have hend {g₄ : Standing} (hadds₄ : g₁.Adds g₄ [first, second] previous.toList)
      (hkey₄ : ∀ key ∈ current, g₄.keyOf b = .ok (some key)) :
      (r.installCurrent b current).run.Meets (visitRules interval) (fun o g' => ∀ b, o = .ok b →
        ∃ previous key, g'.Exact r b previous key) g₄ := by
    apply (visit_installCurrent r b hkey₄).mono
    rintro o g₅ ho b' rfl
    obtain ⟨rfl, key, rest, hadds₅, hstored, hrest⟩ := ho b' rfl
    have hall := hadds₄.trans hadds₅
    have haccesses : g₅.accesses = first :: second :: rest := by
      rw [hall.accesses, haccesses₁]
      rfl
    refine ⟨previous, key, ?_, ⟨first, second, rest, haccesses, hfirst, ?_⟩, ?_, ?_, hstored⟩
    · rw [hall.readings]
      exact hbucket
    · rcases hrest with ⟨rfl, rfl⟩ | ⟨rfl, hsettling⟩
      · exact .inl ⟨hsecond, rfl⟩
      · exact .inr ⟨hsecond, hsettling⟩
    · rw [haccesses]
      intro a ha
      rcases List.mem_cons.mp ha with rfl | ha
      · exact hfirst.spares _
      rcases List.mem_cons.mp ha with rfl | ha
      · exact hsecond.spares _
      · rcases hrest with ⟨-, rfl⟩ | ⟨-, hsettling⟩
        · contradiction
        · exact hsettling.spares a ha
    · rw [hall.window, hwindow₁]
      cases previous <;> rfl
  have hkey₃ : ∀ key ∈ current, g₃.keyOf b = .ok (some key) := by
    rintro key rfl
    exact hkey
  cases previous with
  | none => exact hend hadds hkey₃
  | some before =>
      refine (Action.meets_bind (Action.install before)
        (fun _ => r.installCurrent b current) g₃).mpr
        ⟨trivial, fun _ g₄ ha => ?_⟩
      have hadds₄ := visit_install ha
      exact hend (hadds.trans hadds₄) fun key hmem => hadds₄.keyOf (hkey₃ key hmem)

/-! ## Runs -/

/-- What the others do leaves the exact effect as it is. -/
theorem Standing.Exact.adds {r : Rotater} {previous : Option Key} {key : Key}
    (h : g.Exact r b previous key) (hadds : g.Adds g' [] []) : g'.Exact r b previous key := by
  have haccesses : g'.accesses = g.accesses := hadds.accesses.trans (List.append_nil _)
  refine ⟨?_, ?_, ?_, ?_, hadds.keyOf h.stored⟩
  · rw [hadds.readings]
    exact h.bucket
  · rw [haccesses]
    exact h.calls
  · rw [haccesses]
    exact h.spares
  · rw [hadds.window]
    exact h.window

namespace Visit

variable {r : Rotater} {v v' : Visit}

/-- Whatever comes, the restore has its exact effect if it comes out well. -/
def OnCourse (r : Rotater) (v : Visit) : Prop :=
  v.rest.Meets (visitRules r.interval) (fun o g => ∀ b, o = .ok b →
    ∃ previous key, g.Exact r b previous key) v.standing

/-- A restore stays on course if others only add to the store. -/
theorem OnCourse.adds (h : v.OnCourse r) (hadds : v.standing.Adds g [] []) :
    OnCourse r ⟨g, v.rest⟩ := by
  refine h.grow (fun _ _ => trivial) ?_ ?_
  · rintro q a g' ⟨h', reply, hadds', hanswer⟩
    exact ⟨h', reply, hadds.trans hadds', hanswer⟩
  · intro o hexact b ho
    obtain ⟨previous, key, hexact⟩ := hexact b ho
    exact ⟨previous, key, hexact.adds hadds⟩

/-- Every move in which nothing expires leaves the restore on its course. -/
theorem onCourse_move {m : Move} (h : v.OnCourse r) (hm : v.move r.interval m = some v')
    (hok : v.Lasting m v') : v'.OnCourse r := by
  cases m with
  | clock clock =>
      obtain rfl := Option.some.inj hm
      exact h.adds ⟨rfl, rfl, (List.append_nil _).symm, fun _ _ hlive => hlive⟩
  | pass now =>
      obtain rfl := Option.some.inj hm
      refine h.adds ⟨rfl, rfl, (List.append_nil _).symm, fun name blob hlive => ?_⟩
      exact Ledger.live?_of_get?_eq hlive rfl (hok name (.inl (Option.isSome_of_mem hlive)))
  | create name blob ttl =>
      obtain rfl := Option.some.inj hm
      refine h.adds ⟨rfl, rfl, (List.append_nil _).symm, fun other blob' hlive => ?_⟩
      exact Ledger.live?_create_of_live hlive name blob ttl
  | answer reply =>
      obtain ⟨g, rest⟩ := v
      cases rest with
      | done o => contradiction
      | ask q next =>
          rw [move] at hm
          simp only at hm
          split at hm
          · next a g' hanswer =>
              obtain rfl := Option.some.inj hm
              exact h.2 a g' ⟨g, reply, .refl g, hanswer, fun name hname => hok name (.inr hname)⟩
          · contradiction

/-- A restore among others that comes out well has its exact effect, whatever was stored at
first. -/
theorem exact_of_reaches {clock now : Duration} {l : Ledger}
    (h : Reaches (move r.interval) Lasting (begin r clock now l) v)
    (hdone : v.rest = .done (.ok b)) :
    b.previous.value = b.value - 1 ∧ ∃ previous key, v.standing.Exact r b previous key := by
  have hcourse : v.OnCourse r := h.invariant (P := OnCourse r) (visit_restore r rfl rfl rfl)
    fun _ _ _ h hm hok => onCourse_move h hm hok
  rw [OnCourse, hdone] at hcourse
  obtain ⟨previous, key, hexact⟩ := hcourse b rfl
  obtain ⟨t, -, rfl⟩ := hexact.bucket
  refine ⟨?_, previous, key, hexact⟩
  have hnonneg := Bucket.value_containing_nonneg t r.interval
  rw [Rotater.bucketAt, Bucket.value_previous, Bucket.minValue]
  omega

/-- The ledger in which the bucket before has its key. -/
def heldOver : Ledger :=
  ({} : Ledger).store .zero (Bucket.clamp 2).blobName (Key.small55.toPem.toOption.getD [])
    (.ofSeconds 30)

/-- A restore in bucket 3 that finds the key of bucket 2 but none of its own bucket. Another process
creates one before it does, and once it has lost it finds the key of that process. -/
def outrun : List Move :=
  [.answer .served, .clock (.ofSeconds 40), .answer .served, .pass (.ofSeconds 25), .answer .served,
   .answer .served, .answer (.generated (.ok .small85)),
   .create (Bucket.clamp 3).blobName (Key.small187.toPem.toOption.getD []) (.ofSeconds 30),
   .answer .served, .answer .served, .answer .served]

instance (v : Visit) (m : Move) (v' : Visit) : Decidable (v.Lasting m v') :=
  decidable_of_iff (∀ name ∈ v.standing.shared.ledger.entries.map (·.1) ++ (v.creates? m).toList,
      (v.standing.live? name).isSome ∨ v.creates? m = some name →
        (v'.standing.live? name).isSome) (by
    refine ⟨fun h name hname => h name ?_ hname, fun h name _ hname => h name hname⟩
    rw [List.mem_append]
    rcases hname with hlive | hcreates
    · exact .inl (Ledger.mem_of_live hlive)
    · exact .inr (Option.mem_toList.mpr hcreates))

/-- What the restore came to, once it has ended. -/
def outcome? (v : Visit) : Option (Except Error Bucket) :=
  match v.rest with
  | .done o => some o
  | .ask _ _ => none

/-- A restore with an outcome has nothing left to ask. -/
theorem rest_of_outcome? {o : Except Error Bucket} (h : v.outcome? = some o) :
    v.rest = .done o := by
  rw [outcome?] at h
  split at h
  · next hrest =>
      obtain rfl := Option.some.inj h
      exact hrest
  · contradiction

/-- The restore that is outrun comes out well, with the keys of both buckets. -/
theorem exact_outrun : ∃ v,
    Reaches (move brisk.interval) Lasting (begin brisk (.ofSeconds 30) (.ofSeconds 20) heldOver) v ∧
      v.rest = .done (.ok (.clamp 3)) ∧ v.standing.own.window = .two .small55 .small187 ∧
      ∃ previous key, v.standing.Exact brisk (.clamp 3) previous key := by
  have hrun : ((play (move brisk.interval) Lasting outrun
      (begin brisk (.ofSeconds 30) (.ofSeconds 20) heldOver)).any fun v =>
        v.standing.own.window = .two .small55 .small187 ∧
        v.outcome? = some (.ok (.clamp 3))) = true := by
    decide +kernel
  simp only [Option.any_eq_true, decide_eq_true_eq] at hrun
  obtain ⟨v, hv, hwindow, houtcome⟩ := hrun
  have hdone := rest_of_outcome? houtcome
  have hreaches := Reaches.refl.play hv
  exact ⟨v, hreaches, hdone, hwindow, (exact_of_reaches hreaches hdone).2⟩

end Visit

end Keyring.Rotation
