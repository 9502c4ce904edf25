import Keyring.Proofs.Rotation.Traces
import Keyring.Proofs.Rsa.Generate

/-! # Tenants

Processes on one server, each with a rotater and a client of its own, in every order in which their
requests can be answered. What the server holds at the start is arbitrary, and so is what the
clients make of calls; a call may fail, with or without an effect, and an errand may be given up at
any point. A move that cannot be made changes nothing.
-/

namespace Keyring.Rotation

open Store

variable {σ ι : Type}

/-! ## One tenant -/

/-- What a request makes of the window of its process. -/
def Request.windowAfter : Request → KeyWindow → KeyWindow
  | .install key, window => window.rotate key
  | _, window => window

/-- What the world makes of a request. -/
inductive Response
  /-- The request is carried out. -/
  | served
  /-- A call or a generation fails and has no effect. -/
  | refused (e : Error)
  /-- A call takes effect, but its answer is lost. -/
  | lost (e : Error)
  /-- A key is generated from a source of random bytes. -/
  | drawn (entropy : Entropy)

/-- The answer to a request and the server after it; `none` for a response that is none to the
request. -/
def Response.answer? (B : Backend σ) (now : Duration) (window : KeyWindow) :
    (q : Request) → Response → σ → Option (q.Answer × σ)
  | .time, .served, s => some (now, s)
  | .store c, .served, s => some (B.call now c s)
  | .store _, .refused e, s => some (.error e, s)
  | .store c, .lost e, s => some (.error e, (B.call now c s).2)
  | .generate bits, .drawn entropy, s => some ((Key.generate bits entropy).map (·.1), s)
  | .generate _, .refused e, s => some (.error e, s)
  | .current, .served, s => some (window.current?, s)
  | .install _, .served, s => some ((), s)
  | _, _, _ => none

namespace Response

variable {B : Backend σ} {now : Duration} {window : KeyWindow} {q : Request} {response : Response}
  {s s' : σ} {a : q.Answer}

/-- The server is as it was, unless a call took effect. -/
theorem server_of_answer? (h : response.answer? B now window q s = some (a, s')) :
    s' = s ∨ ∃ c, q = .store c ∧ s' = (B.call now c s).2 := by
  cases q with
  | store c =>
      cases response with
      | served => exact .inr ⟨c, rfl, (congrArg Prod.snd (Option.some.inj h)).symm⟩
      | refused e => exact .inl (Prod.mk.inj (Option.some.inj h)).2.symm
      | lost e => exact .inr ⟨c, rfl, (Prod.mk.inj (Option.some.inj h)).2.symm⟩
      | drawn entropy => contradiction
  | time | generate bits | current | install k =>
      cases response <;> first | contradiction | exact .inl (Prod.mk.inj (Option.some.inj h)).2.symm

/-- A call that is answered well was carried out. -/
theorem call_of_answer? {c : Call} {v : c.Answer}
    (h : response.answer? B now window (.store c) s = some (.ok v, s')) :
    B.call now c s = (.ok v, s') := by
  cases response with
  | served => exact Option.some.inj h
  | refused e | lost e =>
      have hanswer := (Prod.mk.inj (Option.some.inj h)).1
      contradiction
  | drawn entropy => contradiction

/-- Keys that are generated have the size that was asked for. -/
theorem genuine_of_answer? (h : response.answer? B now window q s = some (a, s')) :
    Exchange.Genuine ⟨q, a⟩ := by
  rintro ⟨bits, key⟩ hkey
  cases q with
  | generate n =>
      cases response with
      | drawn entropy =>
          have ha := (Prod.mk.inj (Option.some.inj h)).1
          cases hgenerate : Key.generate n entropy with
          | error e =>
              rw [hgenerate] at ha
              subst ha
              contradiction
          | ok x =>
              rw [hgenerate] at ha
              subst ha
              obtain ⟨rfl, rfl⟩ := Prod.mk.inj (Option.some.inj hkey)
              exact Key.log2_of_generate hgenerate
      | refused e =>
          obtain ⟨rfl, -⟩ := Prod.mk.inj (Option.some.inj h)
          contradiction
      | served | lost e => contradiction
  | time | store c | current | install k => contradiction

end Response

/-- An errand under way. -/
structure Tenant.Job where
  errand : Errand
  rest : Program Outcome
  trace : Trace

/-- An errand that is over. -/
structure Tenant.Record where
  errand : Errand
  /-- What came of it, unless it was given up. -/
  outcome : Option Outcome
  trace : Trace

/-- A process with its keys, its errand and the errands before. -/
structure Tenant where
  window : KeyWindow := .empty
  job : Option Tenant.Job := none
  /-- The errands that are over, the first one first. -/
  records : List Tenant.Record := []

namespace Tenant

/-- What may happen to a process. -/
inductive Act
  /-- It sets out on an errand. -/
  | begin (e : Errand)
  /-- The request that it waits with is answered. -/
  | answer (response : Response)
  /-- Its errand ends. -/
  | conclude
  /-- Its errand is given up. -/
  | abandon

/-- What happens to a process and to the server. -/
def act (B : Backend σ) (r : Rotater) (now : Duration) (x : Tenant) (s : σ) : Act → Tenant × σ
  | .begin e =>
    match x.job with
    | none => ({ x with job := some ⟨e, e.program r, []⟩ }, s)
    | some _ => (x, s)
  | .answer response =>
    match x.job with
    | some ⟨e, .ask q next, trace⟩ =>
      match response.answer? B now x.window q s with
      | some (a, s) =>
        ({ x with window := q.windowAfter x.window, job := some ⟨e, next a, trace ++ [⟨q, a⟩]⟩ }, s)
      | none => (x, s)
    | _ => (x, s)
  | .conclude =>
    match x.job with
    | some ⟨e, .done o, trace⟩ =>
      ({ x with job := none, records := x.records ++ [⟨e, some o, trace⟩] }, s)
    | _ => (x, s)
  | .abandon =>
    match x.job with
    | some ⟨e, _, trace⟩ => ({ x with job := none, records := x.records ++ [⟨e, none, trace⟩] }, s)
    | none => (x, s)

/-- The traces of all errands. -/
def traces (x : Tenant) : List Trace := x.records.map (·.trace) ++ (x.job.map (·.trace)).toList

/-- The traces of a process are those of its ended errands and of the open one. -/
theorem mem_traces {x : Tenant} {trace : Trace} :
    trace ∈ x.traces ↔ (∃ d ∈ x.records, d.trace = trace) ∨ ∃ job ∈ x.job, job.trace = trace := by
  simp only [traces, List.mem_append, List.mem_map, Option.mem_toList, Option.mem_def,
    Option.map_eq_some_iff]

/-- All that can come of an act. -/
inductive Step (B : Backend σ) (r : Rotater) (now : Duration) (x : Tenant) (s : σ) :
    Tenant → σ → Prop
  | idle : Step B r now x s x s
  | begin (e : Errand) (hjob : x.job = none) :
      Step B r now x s { x with job := some ⟨e, e.program r, []⟩ } s
  | answer {e : Errand} {q : Request} {next : q.Answer → Program Outcome} {trace : Trace}
      {response : Response}
    {a : q.Answer} {s' : σ} (hjob : x.job = some ⟨e, .ask q next, trace⟩)
    (hanswer : response.answer? B now x.window q s = some (a, s')) :
    Step B r now x s { x with
      window := q.windowAfter x.window, job := some ⟨e, next a, trace ++ [⟨q, a⟩]⟩ } s'
  | close {job : Job} {outcome : Option Outcome} (hjob : x.job = some job)
      (hdone : ∀ o ∈ outcome, job.rest = .done o) :
    Step B r now x s { x with job := none, records := x.records ++
      [⟨job.errand, outcome, job.trace⟩] } s

/-- Every act is one of the steps. -/
theorem step_act (B : Backend σ) (r : Rotater) (now : Duration) (x : Tenant) (s : σ) (a : Act) :
    Step B r now x s (x.act B r now s a).1 (x.act B r now s a).2 := by
  cases a with
  | begin e =>
      rw [act]
      split
      · next hjob => exact .begin e hjob
      · exact .idle
  | answer response =>
      rw [act]
      split
      · next hjob =>
          split
          · next hanswer => exact .answer hjob hanswer
          · exact .idle
      · exact .idle
  | conclude =>
      rw [act]
      split
      · next hjob =>
          refine .close hjob ?_
          rintro _ ⟨⟩
          rfl
      · exact .idle
  | abandon =>
      rw [act]
      split
      · next hjob => exact .close hjob fun _ h => by contradiction
      · exact .idle

/-- A trace is one of those before, that of a new errand, or one of those before with one more
exchange. -/
theorem Step.traces {B : Backend σ} {r : Rotater} {now : Duration} {x x' : Tenant} {s s' : σ}
    (h : Step B r now x s x' s') {trace : Trace} (htrace : trace ∈ x'.traces) :
    trace ∈ x.traces ∨ trace = [] ∨ ∃ trace₀ ∈ x.traces, ∃ (q : Request) (a : q.Answer)
      (response : Response),
      response.answer? B now x.window q s = some (a, s') ∧ trace = trace₀ ++ [⟨q, a⟩] := by
  cases h with
  | idle => exact .inl htrace
  | begin e hjob =>
      rcases mem_traces.mp htrace with hrecord | ⟨job, ⟨⟩, rfl⟩
      · exact .inl (mem_traces.mpr (.inl hrecord))
      · exact .inr (.inl rfl)
  | answer hjob hanswer =>
      rcases mem_traces.mp htrace with hrecord | ⟨job, ⟨⟩, rfl⟩
      · exact .inl (mem_traces.mpr (.inl hrecord))
      · exact .inr (.inr ⟨_, mem_traces.mpr (.inr ⟨_, hjob, rfl⟩), _, _, _, hanswer, rfl⟩)
  | close hjob hdone =>
      left
      rcases mem_traces.mp htrace with ⟨d, hd, rfl⟩ | ⟨job, hjob', -⟩
      · rcases List.mem_append.mp hd with hd | hd
        · exact mem_traces.mpr (.inl ⟨d, hd, rfl⟩)
        · obtain rfl := List.mem_singleton.mp hd
          exact mem_traces.mpr (.inr ⟨_, hjob, rfl⟩)
      · contradiction

end Tenant

/-! ## All tenants -/

/-- Processes on one server. -/
structure Tenants (ι σ : Type) where
  now : Duration
  server : σ
  tenant : ι → Tenant := fun _ => {}

/-- What may happen. -/
inductive Tenants.Move (ι : Type)
  /-- The clock shows another time. -/
  | clock (now : Duration)
  /-- Something happens to a process. -/
  | act (i : ι) (a : Tenant.Act)

namespace Tenants

variable [DecidableEq ι]

/-- What a move leads to. -/
def move (B : ι → Backend σ) (r : ι → Rotater) (t : Tenants ι σ) : Move ι → Tenants ι σ
  | .clock now => { t with now }
  | .act i a =>
    let after := (t.tenant i).act (B i) (r i) t.now t.server a
    { t with server := after.2, tenant := Function.update t.tenant i after.1 }

/-- What a run leads to. -/
def run (B : ι → Backend σ) (r : ι → Rotater) (ms : List (Move ι)) (t : Tenants ι σ) :
    Tenants ι σ :=
  ms.foldl (move B r) t

end Tenants

/-! ## Soundness -/

namespace Tenant

variable {bits : Nat} {x : Tenant}

/-- What holds of an errand under way. -/
structure Job.Sound (bits : Nat) (job : Job) : Prop where
  rest : job.rest.Meets (traceRules bits) (fun o trace => job.errand.Installs trace o) job.trace
  origin : job.trace.Sound bits

/-- What holds of an errand that is over. -/
structure Record.Sound (bits : Nat) (d : Record) : Prop where
  origin : d.trace.Sound bits
  installs : ∀ o ∈ d.outcome, d.errand.Installs d.trace o

/-- The key was installed on one of the errands. -/
def Installed (x : Tenant) (key : Key) : Prop := ∃ trace ∈ x.traces, key ∈ trace.installed

/-- A key was installed in an errand that has ended or in the open one. -/
theorem installed_iff {key : Key} : x.Installed key ↔
    (∃ d ∈ x.records, key ∈ d.trace.installed) ∨ ∃ job ∈ x.job, key ∈ job.trace.installed := by
  constructor
  · rintro ⟨trace, htrace, hkey⟩
    rcases mem_traces.mp htrace with ⟨d, hd, rfl⟩ | ⟨job, hjob, rfl⟩
    · exact .inl ⟨d, hd, hkey⟩
    · exact .inr ⟨job, hjob, hkey⟩
  · rintro (⟨d, hd, hkey⟩ | ⟨job, hjob, hkey⟩)
    · exact ⟨d.trace, mem_traces.mpr (.inl ⟨d, hd, rfl⟩), hkey⟩
    · exact ⟨job.trace, mem_traces.mpr (.inr ⟨job, hjob, rfl⟩), hkey⟩

/-- What holds of a process. -/
structure Sound (bits : Nat) (x : Tenant) : Prop where
  job : ∀ job ∈ x.job, job.Sound bits
  records : ∀ d ∈ x.records, d.Sound bits
  window : ∀ key ∈ x.window.toList, x.Installed key

/-- All traces of a sound process are sound. -/
theorem Sound.of_mem {trace : Trace} (h : x.Sound bits) (htrace : trace ∈ x.traces) :
    trace.Sound bits := by
  rcases mem_traces.mp htrace with ⟨d, hd, rfl⟩ | ⟨job, hjob, rfl⟩
  · exact (h.records d hd).origin
  · exact (h.job job hjob).origin

/-- A process that has done nothing yet is sound. -/
theorem sound_start (bits : Nat) : Sound bits {} where
  job _ h := by contradiction
  records _ h := by contradiction
  window _ h := by contradiction

/-- A key in the window after a request was there before or is the one that was installed. -/
theorem mem_windowAfter {q : Request} {window : KeyWindow} {key : Key}
    (h : key ∈ (q.windowAfter window).toList) : key ∈ window.toList ∨ q = .install key := by
  cases q with
  | install key' =>
      rw [Request.windowAfter, KeyWindow.toList_rotate, List.mem_append, List.mem_singleton] at h
      rcases h with h | rfl
      · exact .inl (KeyWindow.mem_of_current? (Option.mem_toList.mp h))
      · exact .inr rfl
  | time => exact .inl h
  | store c => exact .inl h
  | generate n => exact .inl h
  | current => exact .inl h

/-- Whatever comes of an act. -/
theorem Sound.step {r : Rotater} {B : Backend σ} {now : Duration} {x' : Tenant} {s s' : σ}
    (h : x.Sound r.keyStrength) (hstep : Step B r now x s x' s') : x'.Sound r.keyStrength := by
  cases hstep with
  | idle => exact h
  | begin e hjob =>
      refine ⟨?_, h.records, fun key hkey => ?_⟩
      · rintro _ ⟨⟩
        exact ⟨e.trace_program r, Trace.sound_nil _⟩
      · rcases installed_iff.mp (h.window key hkey) with hrecord | ⟨job, hjob', -⟩
        · exact installed_iff.mpr (.inl hrecord)
        · rw [hjob] at hjob'
          contradiction
  | answer hjob hanswer =>
      obtain ⟨hrest, horigin⟩ := h.job _ hjob
      refine ⟨?_, h.records, fun key hkey => installed_iff.mpr ?_⟩
      · rintro _ ⟨⟩
        exact ⟨hrest.2 _ _ rfl, horigin.concat hrest.1 (Response.genuine_of_answer? hanswer)⟩
      · rcases mem_windowAfter hkey with hkey | rfl
        · rcases installed_iff.mp (h.window key hkey) with hrecord | ⟨job, hjob', hkey⟩
          · exact .inl hrecord
          · obtain rfl := Option.some.inj (hjob.symm.trans hjob')
            exact .inr ⟨_, rfl, Trace.mem_installed_concat.mpr (.inl hkey)⟩
        · exact .inr ⟨_, rfl, Trace.mem_installed_concat.mpr (.inr rfl)⟩
  | close hjob hdone =>
      obtain ⟨hrest, horigin⟩ := h.job _ hjob
      refine ⟨fun _ h => by contradiction, fun d hd => ?_, fun key hkey => installed_iff.mpr ?_⟩
      · rcases List.mem_append.mp hd with hd | hd
        · exact h.records d hd
        · obtain rfl := List.mem_singleton.mp hd
          refine ⟨horigin, fun o ho => ?_⟩
          rw [hdone o ho] at hrest
          exact hrest
      · rcases installed_iff.mp (h.window key hkey) with ⟨d, hd, hkey⟩ | ⟨job, hjob', hkey⟩
        · exact .inl ⟨d, List.mem_append_left _ hd, hkey⟩
        · obtain rfl := Option.some.inj (hjob.symm.trans hjob')
          exact .inl ⟨_, List.mem_append_right _ List.mem_cons_self, hkey⟩

end Tenant

namespace Tenants

variable [DecidableEq ι] {B : ι → Backend σ} {r : ι → Rotater} {t : Tenants ι σ}

/-- What holds of all processes. -/
def Sound (r : ι → Rotater) (t : Tenants ι σ) : Prop := ∀ i, (t.tenant i).Sound (r i).keyStrength

/-- Every move keeps the processes sound. -/
theorem Sound.move (h : t.Sound r) (m : Move ι) : (t.move B r m).Sound r := by
  cases m with
  | clock now => exact h
  | act i a =>
      intro j
      by_cases hj : j = i
      · subst hj
        simp only [Tenants.move, Function.update_self]
        exact (h j).step (Tenant.step_act _ _ _ _ _ a)
      · simp only [Tenants.move, Function.update_of_ne hj]
        exact h j

/-- Processes that begin with empty windows stay sound. -/
theorem sound_run (now : Duration) (s : σ) (ms : List (Move ι)) :
    (run B r ms { now, server := s }).Sound r := by
  have hrun : ∀ t : Tenants ι σ, t.Sound r → (run B r ms t).Sound r := by
    induction ms with
    | nil => exact fun t h => h
    | cons m ms ih => exact fun t h => ih _ (h.move m)
  exact hrun _ fun i => Tenant.sound_start _

end Tenants

end Keyring.Rotation
