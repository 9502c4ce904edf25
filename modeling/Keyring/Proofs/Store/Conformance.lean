import Keyring.Proofs.Store.Blind
import Keyring.Proofs.Store.Places

/-! # One contract for all backends

What a blob store has to keep is a map from names to blobs with their times of expiry. The backends
count time in different units and test expiry in different ways: the memory store compares
durations, Redis keeps the last millisecond of a value, and PostgreSQL the first one at which a row
is expired. On whole milliseconds they all reply as the map does, except that Redis keeps a value
for one millisecond more, the one at which it expires.
-/

namespace Keyring

namespace Duration

/-- The duration is a number of milliseconds. -/
def Whole (d : Duration) : Prop := d.nanos % nanosPerMilli = 0

instance (d : Duration) : Decidable d.Whole := inferInstanceAs (Decidable (_ = _))

variable {a b : Duration}

/-- A whole time is as many nanoseconds as its milliseconds have. -/
theorem Whole.nanos_eq (h : a.Whole) : a.nanos = a.millis * nanosPerMilli := by
  rw [Whole] at h
  rw [millis, Nat.div_mul_cancel (Nat.dvd_of_mod_eq_zero h)]

/-- Whole times are in the order of their milliseconds. -/
theorem Whole.lt_iff (ha : a.Whole) (hb : b.Whole) : a < b ↔ a.millis < b.millis := by
  rw [lt_def, ha.nanos_eq, hb.nanos_eq]
  exact Nat.mul_lt_mul_right (by decide)

/-- Whole times are the same if their milliseconds are. -/
theorem Whole.eq_iff (ha : a.Whole) (hb : b.Whole) : a = b ↔ a.millis = b.millis := by
  refine ⟨congrArg millis, fun h => ?_⟩
  have hnanos : a.nanos = b.nanos := by rw [ha.nanos_eq, hb.nanos_eq, h]
  cases a
  cases b
  cases hnanos
  rfl

/-- Up to the greatest number of 64 bits, milliseconds add up. -/
theorem Whole.nanos_add (ha : a.Whole) (hb : b.Whole)
    (h : a.millis + b.millis ≤ 0x7fff_ffff_ffff_ffff) :
    (a + b).nanos = (a.millis + b.millis) * nanosPerMilli := by
  rw [Duration.nanos_add, ha.nanos_eq, hb.nanos_eq, Nat.add_mul]
  apply Nat.min_eq_left
  rw [nanosPerMilli, maxNanos]
  omega

/-- The sum of whole times is whole, unless it is too great. -/
theorem Whole.add (ha : a.Whole) (hb : b.Whole) (h : a.millis + b.millis ≤ 0x7fff_ffff_ffff_ffff) :
    (a + b).Whole := by
  rw [Whole, ha.nanos_add hb h, Nat.mul_mod_left]

/-- The milliseconds of whole times add up. -/
theorem Whole.millis_add (ha : a.Whole) (hb : b.Whole)
    (h : a.millis + b.millis ≤ 0x7fff_ffff_ffff_ffff) : (a + b).millis = a.millis + b.millis := by
  rw [millis, ha.nanos_add hb h, Nat.mul_div_cancel _ (by decide)]

end Duration

namespace Store

/-! ## The contract -/

/-- What is stored under each name: a blob and the first moment at which it is gone. -/
abbrev Catalog := String → Option Entry

namespace Catalog

/-- Nothing is stored. -/
def empty : Catalog := fun _ => none

/-- The blob of a name, as long as its time of expiry is not reached. -/
def live? (m : Catalog) (now : Duration) (name : String) : Option Bytes := Entry.live? now (m name)

/-- With a blob stored from now on for a time, in place of what was stored under its name. -/
def put (m : Catalog) (now : Duration) (name : String) (blob : Bytes) (ttl : Duration) : Catalog :=
  Function.update m name (some ⟨blob, now + ttl⟩)

/-- The reply to a call at a time, and the map after it. -/
def reply : Duration × Call → Catalog → Reply × Catalog
  | (now, .read name), m => (.found (m.live? now name), m)
  | (now, .create name blob ttl), m =>
    if (m.live? now name).isSome then (.created false, m)
      else (.created true, m.put now name blob ttl)
  | (now, .write name blob ttl), m => (.written, m.put now name blob ttl)

/-- A map answers a call from the place of its name, and changes no other. -/
theorem reply_eq (m : Catalog) (now : Duration) (c : Call) :
    reply (now, c) m =
      (.ofAnswer c (Entry.call now c (m c.name)).1, Function.update m c.name
        (Entry.call now c (m c.name)).2) := by
  cases c with
  | read name =>
      simp only [reply, Entry.call, live?, Function.update_eq_self, Call.name, Reply.ofAnswer]
  | create name blob ttl =>
      rw [reply, live?]
      by_cases hlive : (Entry.live? now (m name)).isSome
      · rw [if_pos hlive]
        simp only [Call.name, Entry.call_create_live hlive, Function.update_eq_self, Reply.ofAnswer]
      · rw [if_neg hlive]
        simp only [Call.name, Entry.call_create_gone hlive, put, Reply.ofAnswer]
  | write name blob ttl => rfl

/-- The calls find what is under their names as it is asked for. -/
def Along (ok : Duration × Call → Option Entry → Prop) : List (Duration × Call) → Catalog → Prop
  | [], _ => True
  | x :: calls, m => ok x (m x.2.name) ∧ Along ok calls (reply x m).2

instance (ok : Duration × Call → Option Entry → Prop) [∀ x e, Decidable (ok x e)] :
    ∀ (calls : List (Duration × Call)) (m : Catalog), Decidable (Along ok calls m)
  | [], _ => isTrue trivial
  | x :: calls, m =>
    have := instDecidableAlong ok calls (reply x m).2
    inferInstanceAs (Decidable (_ ∧ _))

/-- Two conditions on the calls are one, and a condition on a call alone is one on all calls. -/
theorem along_and {P : Duration × Call → Prop} {ok : Duration × Call → Option Entry → Prop}
    {calls : List (Duration × Call)} {m : Catalog} (hP : ∀ x ∈ calls, P x) (h : Along ok calls m) :
    Along (fun x e => P x ∧ ok x e) calls m := by
  induction calls generalizing m with
  | nil => trivial
  | cons x calls ih =>
      obtain ⟨hx, hcalls⟩ := List.forall_mem_cons.mp hP
      exact ⟨⟨hx, h.1⟩, ih hcalls h.2⟩

/-- What holds of all calls holds of them along the way. -/
theorem along_of_forall {P : Duration × Call → Prop} {calls : List (Duration × Call)}
    (hP : ∀ x ∈ calls, P x) (m : Catalog) : Along (fun x _ => P x) calls m := by
  induction calls generalizing m with
  | nil => trivial
  | cons x calls ih =>
      obtain ⟨hx, hcalls⟩ := List.forall_mem_cons.mp hP
      exact ⟨hx, ih hcalls _⟩

end Catalog

/-! ## Refinement, place by place -/

section Refinement

variable {σ π : Type} {B : Backend σ} {key : String → String} {place : String → σ → π}
  {callAt : Duration → (c : Call) → π → Except Error c.Answer × π}
  {R : π → Option Entry → Prop} {ok : Duration × Call → Option Entry → Prop}

/-- In places that correspond to entries, calls do what they do to the entries, if they come as they
should. -/
def Refines (callAt : Duration → (c : Call) → π → Except Error c.Answer × π)
    (R : π → Option Entry → Prop) (ok : Duration × Call → Option Entry → Prop) : Prop :=
  ∀ now c p e, R p e → ok (now, c) e →
    (callAt now c p).1 = (Entry.call now c e).1 ∧ R (callAt now c p).2 (Entry.call now c e).2

/-- One call: the store replies as the map does, and its places correspond to the map's entries
again. -/
theorem Backend.Keyed.reply_eq (hB : B.Keyed key place callAt) (hkey : Function.Injective key)
    (hrefines : Refines callAt R ok) {s : σ} {m : Catalog}
    (hR : ∀ name, R (place (key name) s) (m name)) {x : Duration × Call} (hx : ok x (m x.2.name)) :
    (B.reply x s).1 = (Catalog.reply x m).1 ∧
      ∀ name, R (place (key name) (B.reply x s).2) ((Catalog.reply x m).2 name) := by
  obtain ⟨now, c⟩ := x
  obtain ⟨hanswer, hafter⟩ := hrefines now c _ _ (hR c.name) hx
  rw [← hB.own now c s] at hanswer hafter
  rw [Catalog.reply_eq, Backend.reply]
  refine ⟨congrArg (Reply.ofAnswer c) hanswer, fun name => ?_⟩
  by_cases hname : name = c.name
  · simp only [hname, Function.update_self]
    exact hafter
  · simp only [Function.update_of_ne hname, hB.other now c s _ (hkey.ne hname)]
    exact hR name

/-- All calls, by induction on their list. -/
theorem Backend.Keyed.serve_eq (hB : B.Keyed key place callAt) (hkey : Function.Injective key)
    (hrefines : Refines callAt R ok) {calls : List (Duration × Call)} {s : σ} {m : Catalog}
    (hR : ∀ name, R (place (key name) s) (m name)) (hok : Catalog.Along ok calls m) :
    (serve B.reply calls s).1 = (serve Catalog.reply calls m).1 := by
  induction calls generalizing s m with
  | nil => rfl
  | cons x calls ih =>
      obtain ⟨hreply, hafter⟩ := hB.reply_eq hkey hrefines hR hok.1
      rw [serve, serve, hreply, ih hafter hok.2]

end Refinement

/-! ## Calls at whole milliseconds -/

/-- How long the blob that is passed is to be kept. -/
def Call.ttl? : Call → Option Duration
  | .read _ => none
  | .create _ _ ttl => some ttl
  | .write _ _ ttl => some ttl

/-- A call at a whole millisecond that stores for a whole number of milliseconds, at least one, and
at most up to the greatest number of milliseconds that signed 64 bits can show. -/
structure Proper (x : Duration × Call) : Prop where
  whole : x.1.Whole
  ttl : ∀ ttl ∈ x.2.ttl?, ttl.Whole ∧ 1 ≤ ttl.millis ∧
    x.1.millis + ttl.millis ≤ 0x7fff_ffff_ffff_ffff

/-- Proper calls, in the order of their times. -/
structure Regular (calls : List (Duration × Call)) : Prop where
  ordered : calls.Pairwise fun x y => x.1 ≤ y.1
  proper : ∀ x ∈ calls, Proper x

/-- The call does not come at the moment at which what is under its name expires. -/
def OffExpiry (x : Duration × Call) (place : Option Entry) : Prop := ∀ e ∈ place, x.1 ≠ e.expiry

instance (x : Duration × Call) (place : Option Entry) : Decidable (OffExpiry x place) :=
  inferInstanceAs (Decidable (∀ e ∈ place, x.1 ≠ e.expiry))

/-- The entry expires at a whole millisecond that signed 64 bits can show. -/
structure Entry.Fits (e : Entry) : Prop where
  whole : e.expiry.Whole
  le : e.expiry.millis ≤ 0x7fff_ffff_ffff_ffff

/-- What a proper call stores expires at a whole time that fits. -/
theorem Proper.fits {now ttl : Duration} {c : Call} (h : Proper (now, c)) (httl : ttl ∈ c.ttl?)
    (blob : Bytes) : Entry.Fits ⟨blob, now + ttl⟩ := by
  obtain ⟨hwhole, -, hle⟩ := h.ttl ttl httl
  exact ⟨h.whole.add hwhole hle, by rw [h.whole.millis_add hwhole hle]; exact hle⟩

/-! ### The memory store -/

/-- The memory store works place by place as the map does. -/
theorem Memory.refines : Refines Entry.call (· = ·) fun _ _ => True := by
  rintro now c p e rfl -
  exact ⟨rfl, rfl⟩

/-! ### Redis -/

namespace Redis

/-- The slot holds the entry, whose last millisecond counts as the one at which it expires. -/
def Slot.Holds (slot : Option Slot) (place : Option Entry) : Prop :=
  slot = some (place.map fun e => (e.blob, e.expiry.millis)) ∧ ∀ e ∈ place, e.Fits

/-- Off the moment of expiry it is the same to be there until the millisecond and to expire at
it. -/
theorem Slot.live?_eq {now : Duration} {place : Option Entry} (hnow : now.Whole)
    (hfits : ∀ e ∈ place, e.Fits) (hoff : ∀ e ∈ place, now ≠ e.expiry) :
    Slot.live? now.millis (place.map fun e => (e.blob, e.expiry.millis)) =
      Entry.live? now place := by
  cases place with
  | none => rfl
  | some e =>
      have hwhole := (hfits e rfl).whole
      have hne : now.millis ≠ e.expiry.millis := fun h => hoff e rfl ((hnow.eq_iff hwhole).mpr h)
      have hiff : now.millis ≤ e.expiry.millis ↔ now < e.expiry := by
        rw [hnow.lt_iff hwhole]
        omega
      simp only [Slot.live?, Entry.live?, Option.map_some, Option.bind_some, hiff]

/-- A lifetime that fits is asked for as it is, and the server takes it. -/
theorem lifetime_eq {x : Duration × Call} (h : Proper x) {ttl : Duration} (httl : ttl ∈ x.2.ttl?) :
    lifetime ttl = ttl.millis ∧ Server.accepts x.1.millis ttl.millis = true := by
  obtain ⟨-, hpos, hle⟩ := h.ttl ttl httl
  refine ⟨by rw [lifetime]; omega, ?_⟩
  have hmax : x.1.millis + ttl.millis ≤ Server.maxNumber := hle
  simp only [Server.accepts, Bool.and_eq_true, decide_eq_true_eq]
  omega

/-- PostgreSQL works place by place as the map does, but for calls at the very time of expiry. -/
theorem refines : Refines Slot.callOver Slot.Holds fun x place => Proper x ∧ OffExpiry x place := by
  rintro now c slot place ⟨rfl, hfits⟩ ⟨hproper, hoff⟩
  have hlive := Slot.live?_eq hproper.whole hfits hoff
  cases c with
  | read name =>
      rw [Slot.callOver, Slot.call, hlive]
      exact ⟨rfl, rfl, hfits⟩
  | create name blob ttl =>
      obtain ⟨hlifetime, haccepts⟩ := lifetime_eq hproper rfl
      obtain ⟨hwhole, -, hle⟩ := hproper.ttl ttl rfl
      by_cases hthere : (Entry.live? now place).isSome
      · rw [Entry.call_create_live hthere, Slot.callOver, Slot.call, hlive, hlifetime,
          if_pos haccepts, if_pos hthere]
        exact ⟨rfl, rfl, hfits⟩
      · rw [Entry.call_create_gone hthere, Slot.callOver, Slot.call, hlive, hlifetime,
          if_pos haccepts, if_neg hthere, ← hproper.whole.millis_add hwhole hle]
        refine ⟨rfl, rfl, ?_⟩
        rintro e ⟨⟩
        exact hproper.fits rfl blob
  | write name blob ttl =>
      obtain ⟨hlifetime, haccepts⟩ := lifetime_eq hproper rfl
      obtain ⟨hwhole, -, hle⟩ := hproper.ttl ttl rfl
      rw [Slot.callOver, Slot.call, hlifetime, if_pos haccepts,
        ← hproper.whole.millis_add hwhole hle]
      refine ⟨rfl, rfl, ?_⟩
      rintro e ⟨⟩
      exact hproper.fits rfl blob

end Redis

/-! ### PostgreSQL -/

namespace Postgres

/-- The slot holds the entry. -/
def Slot.Holds (slot : Option Slot) (place : Option Entry) : Prop :=
  slot = some (place.map fun e => (e.blob, (e.expiry.millis : Int))) ∧ ∀ e ∈ place, e.Fits

/-- A time beyond the range is past every time of expiry, as it is once it is cut off. -/
theorem Slot.live?_eq {now : Duration} {place : Option Entry} (hnow : now.Whole)
    (hfits : ∀ e ∈ place, e.Fits) :
    Slot.live? (unixMillis now) (place.map fun e => (e.blob, (e.expiry.millis : Int))) =
      Entry.live? now place := by
  cases place with
  | none => rfl
  | some e =>
      obtain ⟨hwhole, hle⟩ := hfits e rfl
      have hiff : unixMillis now < (e.expiry.millis : Int) ↔ now < e.expiry := by
        rw [hnow.lt_iff hwhole, unixMillis]
        omega
      simp only [Slot.live?, Entry.live?, Option.map_some, Option.bind_some, hiff]

/-- A time of expiry that fits is stored in full. -/
theorem Slot.unixMillis_expiry {e : Entry} (h : e.Fits) :
    unixMillis e.expiry = e.expiry.millis := by
  have hle := h.le
  rw [unixMillis]
  omega

/-- Redis works place by place as the map does. -/
theorem refines : Refines Slot.callOver Slot.Holds fun x _ => Proper x := by
  rintro now c slot place ⟨rfl, hfits⟩ hproper
  have hlive := Slot.live?_eq hproper.whole hfits
  cases c with
  | read name =>
      rw [Slot.callOver, Slot.call, hlive]
      exact ⟨rfl, rfl, hfits⟩
  | create name blob ttl =>
      have hexpiry := Slot.unixMillis_expiry (hproper.fits rfl blob)
      by_cases hthere : (Entry.live? now place).isSome
      · rw [Entry.call_create_live hthere, Slot.callOver, Slot.call, hlive, if_pos hthere]
        exact ⟨rfl, rfl, hfits⟩
      · rw [Entry.call_create_gone hthere, Slot.callOver, Slot.call, hlive, if_neg hthere, hexpiry]
        refine ⟨rfl, rfl, ?_⟩
        rintro e ⟨⟩
        exact hproper.fits rfl blob
  | write name blob ttl =>
      rw [Slot.callOver, Slot.call, Slot.unixMillis_expiry (hproper.fits rfl blob)]
      refine ⟨rfl, rfl, ?_⟩
      rintro e ⟨⟩
      exact hproper.fits rfl blob

/-- A creation is accepted exactly if a read in the same millisecond finds nothing, whatever the
table holds. -/
theorem created_iff (p : Postgres) (t : Table) {now later : Duration}
    (h : later.millis = now.millis) (name : String) (blob : Bytes) (ttl : Duration) :
    (p.backend.reply (now, .create name blob ttl) (some t)).1 = .created true ↔
      (p.backend.reply (later, .read name) (some t)).1 = .found none := by
  have hmillis : unixMillis later = unixMillis now := by rw [unixMillis, unixMillis, h]
  have hcreate := congrArg Prod.fst (p.keyed.own now (.create name blob ttl) (some t))
  have hread := congrArg Prod.fst (p.keyed.own later (.read name) (some t))
  simp only [Option.map_some, Call.name, Slot.callOver, Slot.call, hmillis] at hcreate hread
  simp only [Backend.reply, hcreate, hread]
  cases hlive : (t.slot (p.key name)).live? (unixMillis now) with
  | none => simp [Reply.ofAnswer]
  | some b => simp [Reply.ofAnswer]

end Postgres

/-! ## Conformance -/

/-- All backends reply to the calls as a map does from names to blobs with their times of expiry. -/
structure Conform (calls : List (Duration × Call)) : Prop where
  /-- The memory store, as long as there is room for a blob under each name. -/
  memory : ∀ maxSize, (calls.map (·.2.name)).dedup.length ≤ maxSize →
    Catalog.Along OffExpiry calls .empty →
    (serve Memory.backend.reply calls { maxSize }).1 = (serve Catalog.reply calls .empty).1
  redis : ∀ r : Redis, Catalog.Along OffExpiry calls .empty →
    (serve r.backend.reply calls (some {})).1 = (serve Catalog.reply calls .empty).1
  /-- The PostgreSQL store, at the moment of expiry as well. -/
  postgres : ∀ p : Postgres, (serve p.backend.reply calls (some {})).1 =
    (serve Catalog.reply calls .empty).1
  /-- In a table, a creation is accepted exactly if a read in the same millisecond finds nothing. -/
  race : ∀ (p : Postgres) (t : Postgres.Table) (now later : Duration), later.millis = now.millis →
    ∀ name blob ttl, (p.backend.reply (now, .create name blob ttl) (some t)).1 = .created true ↔
      (p.backend.reply (later, .read name) (some t)).1 = .found none

/-- On whole milliseconds all backends keep one contract. -/
theorem conform_of_regular {calls : List (Duration × Call)} (h : Regular calls) :
    Conform calls where
  memory maxSize _ _ :=
    Memory.keyed.serve_eq Function.injective_id Memory.refines (fun _ => rfl)
      (Catalog.along_of_forall (fun _ _ => trivial) _)
  redis r hoff :=
    r.keyed.serve_eq (qualify_injective r.spaceName) Redis.refines
      (fun _ => ⟨rfl, fun _ h => by contradiction⟩)
      (Catalog.along_and h.proper hoff)
  postgres p :=
    p.keyed.serve_eq (qualify_injective p.spaceName) Postgres.refines
      (fun _ => ⟨rfl, fun _ h => by contradiction⟩)
      (Catalog.along_of_forall h.proper _)
  race p t _ _ hmillis name blob ttl := p.created_iff t hmillis name blob ttl

/-- A name is created, created again in vain, expires, is created with another lifetime, and is
overwritten while it lives with a third one. -/
def reclaimed : List (Duration × Call) :=
  [(.ofMillis 0, .create "rsa:0" [1] (.ofMillis 1000)),
    (.ofMillis 500, .create "rsa:0" [2] (.ofMillis 9000)),
   (.ofMillis 999, .read "rsa:0"), (.ofMillis 1001, .read "rsa:0"),
   (.ofMillis 1500, .create "rsa:0" [3] (.ofMillis 1)),
   (.ofMillis 1500, .write "rsa:0" [4] (.ofMillis 5000)), (.ofMillis 2000, .read "rsa:0"),
   (.ofMillis 2000, .create "rsa:1" [5] (.ofMillis 3000)), (.ofMillis 7000, .read "rsa:0")]

/-- The calls are regular, none comes at a moment of expiry, and so all backends reply to them in
one way. -/
theorem conform_reclaimed :
    Regular reclaimed ∧ Conform reclaimed ∧ Catalog.Along OffExpiry reclaimed .empty ∧
      (serve Memory.backend.reply reclaimed { maxSize := 2 }).1 =
        [.created true, .created false, .found (some [1]), .found none, .created true, .written,
         .found (some [4]), .created true, .found none] := by
  have hregular : Regular reclaimed := by
    refine ⟨by decide, fun x hx => ⟨?_, ?_⟩⟩
    · revert x hx
      decide
    · revert x hx
      decide
  have hoff : Catalog.Along OffExpiry reclaimed .empty := by decide
  have hconform := conform_of_regular hregular
  refine ⟨hregular, hconform, hoff, ?_⟩
  rw [hconform.memory 2 (by decide) hoff]
  decide

end Store

end Keyring
