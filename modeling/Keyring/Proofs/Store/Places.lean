import Keyring.Proofs.Bucket
import Keyring.Store.Memory
import Keyring.Store.Postgres
import Keyring.Store.Redis
import Mathlib.Data.List.Basic

/-! # Places

A store keeps what is under a key in a place of its own: a call on a key is answered from that
place, and no other place is touched. So a backend is described by what a call does in one place.
The keys of buckets' blobs tell spaces of names apart, whatever the spaces are called, so clients of
different spaces never meet in one place.
-/

namespace Keyring.Store

/-! ## Keys -/

/-- The part before the last separator and the part after it are read off the text. -/
theorem append_separator_inj {xs ys ds es : List Char} (hds : ':' ∉ ds) (hes : ':' ∉ es) :
    xs ++ ':' :: ds = ys ++ ':' :: es ↔ xs = ys ∧ ds = es := by
  constructor
  · intro h
    rcases List.append_eq_append_iff.mp h with ⟨zs, rfl, hzs⟩ | ⟨zs, rfl, hzs⟩
    · cases zs with
      | nil => simpa using hzs
      | cons z zs =>
          rw [List.cons_append, List.cons.injEq] at hzs
          exact absurd (hzs.2 ▸ List.mem_append_right zs List.mem_cons_self) hds
    · cases zs with
      | nil => simpa [eq_comm] using hzs
      | cons z zs =>
          rw [List.cons_append, List.cons.injEq] at hzs
          exact absurd (hzs.2 ▸ List.mem_append_right zs List.mem_cons_self) hes
  · rintro ⟨rfl, rfl⟩
    rfl

/-- The number of a bucket is shown without a colon. -/
theorem separator_not_mem_display (b : Bucket) : ':' ∉ b.display.toList := by
  have hdigits : ':' ∉ Nat.toDigits 10 b.value.natAbs :=
    fun h => absurd (isDigit_of_mem_toDigits h) (by decide)
  rw [Bucket.toList_display]
  split
  · exact hdigits
  · rw [List.mem_cons, not_or]
    exact ⟨by decide, hdigits⟩

/-- What stands before the last separator in the key of a bucket's blob. -/
def stem (spaceName : Option String) : List Char :=
  (qualify spaceName Bucket.blobPrefix).toList

/-- The name of a blob is the stem of its space and the number of its bucket, with a colon
between. -/
theorem toList_qualify_blobName (spaceName : Option String) (b : Bucket) :
    (qualify spaceName b.blobName).toList = stem spaceName ++ ':' :: b.display.toList := by
  cases spaceName <;> simp [qualify, stem, Bucket.blobName]

/-- The stem tells the space. -/
theorem stem_injective : Function.Injective stem := by
  intro s s' h
  have hlength := congrArg List.length h
  cases s with
  | none =>
      cases s' with
      | none => rfl
      | some space =>
          simp only [stem, qualify, String.toList_append, List.length_append] at hlength
          simp at hlength
  | some space =>
      cases s' with
      | none =>
          simp only [stem, qualify, String.toList_append, List.length_append] at hlength
          simp at hlength
      | some space' =>
          simp only [stem, qualify, String.toList_append, List.append_assoc,
            List.append_cancel_right_eq] at h
          rw [String.toList_inj.mp h]

/-- The key of a bucket's blob determines the space of names and the bucket, whatever the space is
called. -/
theorem qualify_blobName_inj {s s' : Option String} {b b' : Bucket} :
    qualify s b.blobName = qualify s' b'.blobName ↔ s = s' ∧ b = b' := by
  rw [← String.toList_inj, toList_qualify_blobName, toList_qualify_blobName,
    append_separator_inj (separator_not_mem_display b) (separator_not_mem_display b'),
    stem_injective.eq_iff, String.toList_inj]
  exact and_congr_right fun _ => ⟨Bucket.display_injective, congrArg Bucket.display⟩

/-- Only the empty text is no space of names. -/
theorem spaceOf_injective : Function.Injective spaceOf := by
  intro t t' h
  rw [spaceOf, spaceOf] at h
  split at h <;> split at h
  · next ht ht' => rw [String.isEmpty_iff.mp ht, String.isEmpty_iff.mp ht']
  · contradiction
  · contradiction
  · exact Option.some.inj h

/-- A connected store has the space of its settings. -/
theorem Redis.spaceName_of_connect {address space : String} {r : Redis}
    (h : connect address space = .ok r) : r.spaceName = spaceOf space := by
  rw [connect] at h
  split at h
  · rw [← Except.ok.inj h]
  · contradiction

/-- A connected store has the space of its settings. -/
theorem Postgres.spaceName_of_connect {address space : String} {poolSize : Nat} {p : Postgres}
    (h : connect address poolSize space = .ok p) : p.spaceName = spaceOf space := by
  rw [connect] at h
  split at h
  · rw [← Except.ok.inj h]
  · contradiction

/-- In one space of names, a name has a key of its own. -/
theorem qualify_injective (spaceName : Option String) : Function.Injective (qualify spaceName) := by
  intro name name' h
  cases spaceName with
  | none => exact h
  | some space => exact (String.append_right_inj _).mp h

/-! ## Stores of places -/

variable {σ π : Type}

/-- A call is answered from the place of its key, which is left as `callAt` says, and no other place
is touched. -/
structure Backend.Keyed (B : Backend σ) (key : String → String) (place : String → σ → π)
    (callAt : Duration → (c : Call) → π → Except Error c.Answer × π) : Prop where
  own : ∀ now c s, ((B.call now c s).1, place (key c.name) (B.call now c s).2) =
    callAt now c (place (key c.name) s)
  other : ∀ now c s k, k ≠ key c.name → place k (B.call now c s).2 = place k s

/-- A call is answered alike by two states that hold the same under its key, and afterwards they
hold the same wherever they did before. -/
theorem Backend.Keyed.congr {B : Backend σ} {key : String → String} {place : String → σ → π}
    {callAt : Duration → (c : Call) → π → Except Error c.Answer × π} (hB : B.Keyed key place callAt)
    (now : Duration) {c : Call} {s s' : σ} (h : place (key c.name) s = place (key c.name) s') :
    (B.call now c s).1 = (B.call now c s').1 ∧
      ∀ k, place k s = place k s' → place k (B.call now c s).2 = place k (B.call now c s').2 := by
  have hown := hB.own now c s
  rw [h, ← hB.own now c s', Prod.mk.injEq] at hown
  refine ⟨hown.1, fun k hk => ?_⟩
  by_cases hkey : k = key c.name
  · rw [hkey]
    exact hown.2
  · rw [hB.other now c s k hkey, hB.other now c s' k hkey, hk]

/-- Putting an element in place of those with its key changes what is found under that key and under
no other. -/
theorem find?_cons_filter {α κ : Type} [DecidableEq κ] (key : α → κ) (a : α) (l : List α) (k : κ) :
    (a :: l.filter fun b => decide (key b ≠ key a)).find? (fun b => decide (key b = k)) =
      if key a = k then some a else l.find? fun b => decide (key b = k) := by
  by_cases h : key a = k
  · rw [if_pos h, List.find?_cons_of_pos (by simpa using h)]
  · rw [if_neg h, List.find?_cons_of_neg (by simpa using h), List.find?_filter]
    congr 1
    funext b
    by_cases hb : key b = k
    · simp [hb, Ne.symm h]
    · simp [hb]

/-! ### Entries of a ledger -/

/-- The blob of an entry that is live. -/
def Entry.live? (now : Duration) (place : Option Entry) : Option Bytes :=
  place.bind fun e => if now < e.expiry then some e.blob else none

/-- What a call does to the entry of its name: a creation is accepted unless the entry is live, and
what is stored replaces the entry. -/
def Entry.call (now : Duration) : (c : Call) → Option Entry → Except Error c.Answer × Option Entry
  | .read _, e => (.ok (live? now e), e)
  | .create _ blob ttl, e =>
    if (live? now e).isSome then (.ok false, e) else (.ok true, some ⟨blob, now + ttl⟩)
  | .write _ blob ttl, _ => (.ok (), some ⟨blob, now + ttl⟩)

/-- Nothing is created in a place whose blob is still there. -/
theorem Entry.call_create_live {now : Duration} {place : Option Entry}
    (h : (live? now place).isSome) (name : String) (blob : Bytes) (ttl : Duration) :
    call now (.create name blob ttl) place = (.ok false, place) := if_pos h

/-- A blob is created in a place that is empty or has expired. -/
theorem Entry.call_create_gone {now : Duration} {place : Option Entry}
    (h : ¬ (live? now place).isSome) (name : String) (blob : Bytes) (ttl : Duration) :
    call now (.create name blob ttl) place = (.ok true, some ⟨blob, now + ttl⟩) := if_neg h

/-- What a ledger shows under a name is what the place of the name shows. -/
theorem Ledger.live?_eq (l : Ledger) (now : Duration) (name : String) :
    l.live? now name = Entry.live? now (l.get? name) := by
  rw [live?]
  cases l.get? name <;> rfl

/-- What was stored under a name is there. -/
theorem Ledger.get?_store_self (l : Ledger) (now : Duration) (name : String) (blob : Bytes)
    (ttl : Duration) : (l.store now name blob ttl).get? name = some ⟨blob, now + ttl⟩ := by
  rw [store, get?_put, if_pos rfl]

/-- What is stored under a name leaves the other places alone. -/
theorem Ledger.get?_store_of_ne (l : Ledger) (now : Duration) {name other : String} (blob : Bytes)
    (ttl : Duration) (h : other ≠ name) :
    (l.store now name blob ttl).get? other = l.get? other := by
  rw [store, get?_put, if_neg h.symm]

/-- The memory store keeps the entry of each name. -/
theorem Memory.keyed :
    backend.Keyed id (fun name (m : Memory) => m.ledger.get? name) Entry.call where
  own now c m := by
    cases c with
    | read name =>
        simp only [backend, call, Ledger.call, Ledger.live?_eq, Entry.call, Call.name, id]
    | create name blob ttl =>
        simp only [backend, call, Ledger.call, Ledger.live?_eq, Call.name, id]
        by_cases hlive : (Entry.live? now (m.ledger.get? name)).isSome
        · simp only [if_pos hlive, Entry.call_create_live hlive]
        · simp only [if_neg hlive, Entry.call_create_gone hlive, Ledger.get?_store_self]
    | write name blob ttl =>
        simp only [backend, call, Ledger.call, Ledger.get?_store_self, Entry.call, Call.name, id]
  other now c m k hk := by
    cases c with
    | read name => rfl
    | create name blob ttl =>
        simp only [backend, call, Ledger.call]
        split
        · rfl
        · exact m.ledger.get?_store_of_ne now blob ttl hk
    | write name blob ttl => exact m.ledger.get?_store_of_ne now blob ttl hk

/-! ### Values of a Redis server -/

namespace Redis

/-- What is under a key: a value and the last millisecond at which it is there. -/
abbrev Slot := Option (Bytes × Nat)

namespace Slot

/-- The value, if it is still there. -/
def live? (now : Nat) (slot : Slot) : Option Bytes :=
  slot.bind fun e => if now ≤ e.2 then some e.1 else none

/-- What a call does to the slot of its key. -/
def call (now : Duration) : (c : Call) → Slot → Except Error c.Answer × Slot
  | .read _, slot => (.ok (slot.live? now.millis), slot)
  | .create _ blob ttl, slot =>
    if Server.accepts now.millis (lifetime ttl) then
      if (slot.live? now.millis).isSome then (.ok false, slot)
      else (.ok true, some (blob, now.millis + lifetime ttl))
    else (.error (failure "Redis SET NX failed"), slot)
  | .write _ blob ttl, slot =>
    if Server.accepts now.millis (lifetime ttl) then
      (.ok (), some (blob, now.millis + lifetime ttl))
    else (.error (failure "Redis SET failed"), slot)

/-- The same over a connection, if there is one. -/
def callOver (now : Duration) (c : Call) : Option Slot → Except Error c.Answer × Option Slot
  | some slot => ((call now c slot).1, some (call now c slot).2)
  | none => (.error (failure "Failed to get Redis connection"), none)

end Slot

/-- What is under a key, live or not. -/
def Server.slot (s : Server) (key : String) : Slot :=
  (s.entries.find? (·.1 = key)).map (·.2)

/-- What a server answers for a key is what the slot of the key shows. -/
theorem Server.get?_eq (s : Server) (now : Nat) (key : String) :
    s.get? now key = (s.slot key).live? now := by
  rw [get?, slot]
  cases s.entries.find? (·.1 = key) <;> rfl

/-- The server with a value in place of any other of its key. -/
def Server.put (s : Server) (key : String) (blob : Bytes) (last : Nat) : Server :=
  ⟨(key, blob, last) :: s.entries.filter (·.1 ≠ key)⟩

/-- What was put under a key is there. -/
theorem Server.slot_put_self (s : Server) (key : String) (blob : Bytes) (last : Nat) :
    (s.put key blob last).slot key = some (blob, last) := by
  rw [slot, put, find?_cons_filter (·.1) (key, blob, last), if_pos rfl]
  rfl

/-- What is put under a key leaves the other slots alone. -/
theorem Server.slot_put_of_ne (s : Server) {key other : String} (blob : Bytes) (last : Nat)
    (h : other ≠ key) : (s.put key blob last).slot other = s.slot other := by
  rw [slot, put, find?_cons_filter (·.1) (key, blob, last), if_neg h.symm]
  rfl

/-- A server sets a key if it accepts the lifetime, and does so only where the slot is free if it
was told to. -/
theorem Server.set?_eq (s : Server) (now : Nat) (key : String) (blob : Bytes) (onlyAbsent : Bool)
    (lifetime : Nat) :
    s.set? now key blob onlyAbsent lifetime =
      if accepts now lifetime then
        if onlyAbsent && ((s.slot key).live? now).isSome then some (false, s)
        else some (true, s.put key blob (now + lifetime))
      else none := by
  rw [set?, get?_eq]
  cases accepts now lifetime <;> rfl

/-- A command touches no slot but that of its key. -/
theorem Server.slot_set?_of_ne {s s' : Server} {now lifetime : Nat} {key other : String}
    {blob : Bytes} {onlyAbsent won : Bool}
    (h : s.set? now key blob onlyAbsent lifetime = some (won, s')) (hother : other ≠ key) :
    s'.slot other = s.slot other := by
  rw [set?_eq] at h
  split at h
  · split at h
    · rw [(Prod.mk.inj (Option.some.inj h)).2]
    · rw [← (Prod.mk.inj (Option.some.inj h)).2, slot_put_of_ne s blob _ hother]
  · contradiction

/-- A client does to the slot of a key what the command does, and nothing to the others. -/
theorem keyed (r : Redis) :
    r.backend.Keyed r.key (fun k s => s.map (Server.slot · k)) Slot.callOver where
  own now c s := by
    cases s with
    | none => rfl
    | some s =>
        cases c with
        | read name =>
            simp only [backend, callServer, Server.get?_eq, Slot.callOver, Slot.call, Call.name,
              Option.map_some]
        | create name blob ttl =>
            simp only [backend, callServer, Server.set?_eq, Slot.callOver, Slot.call, Call.name,
              Option.map_some, Bool.true_and]
            by_cases haccepts : Server.accepts now.millis (lifetime ttl)
            · by_cases hlive : ((s.slot (r.key name)).live? now.millis).isSome
              · simp only [if_pos haccepts, if_pos hlive]
              · simp only [if_pos haccepts, if_neg hlive, Server.slot_put_self]
            · simp only [if_neg haccepts]
        | write name blob ttl =>
            simp only [backend, callServer, Server.set?_eq, Slot.callOver, Slot.call, Call.name,
              Option.map_some, Bool.false_and, Bool.false_eq_true, if_false]
            by_cases haccepts : Server.accepts now.millis (lifetime ttl)
            · simp only [if_pos haccepts, Server.slot_put_self]
            · simp only [if_neg haccepts]
  other now c s k hk := by
    cases s with
    | none => rfl
    | some s =>
        cases c with
        | read name => rfl
        | create name blob ttl | write name blob ttl =>
            simp only [backend, callServer, Option.map_some]
            split
            · next hset => exact congrArg some (Server.slot_set?_of_ne hset hk)
            · rfl

end Redis

/-! ### Rows of a PostgreSQL table -/

namespace Postgres

/-- The row that was put in is the row of its name. -/
theorem Table.row?_upsert_self (t : Table) (row : Row) :
    (t.upsert row).row? row.name = some row := by
  rw [row?, upsert]
  exact (find?_cons_filter Row.name row t.rows row.name).trans (if_pos rfl)

/-- A row that is put in leaves the rows of other names alone. -/
theorem Table.row?_upsert_of_ne (t : Table) (row : Row) {name : String} (h : name ≠ row.name) :
    (t.upsert row).row? name = t.row? name := by
  rw [row?, upsert]
  exact (find?_cons_filter Row.name row t.rows name).trans (if_neg h.symm)

/-- What is under a name: a blob and the time of its expiry. -/
abbrev Slot := Option (Bytes × Int)

namespace Slot

/-- The blob, unless it has expired. -/
def live? (now : Int) (slot : Slot) : Option Bytes :=
  slot.bind fun e => if now < e.2 then some e.1 else none

/-- What a call does to the slot of its name. -/
def call (now : Duration) : (c : Call) → Slot → Except Error c.Answer × Slot
  | .read _, slot => (.ok (slot.live? (unixMillis now)), slot)
  | .create _ blob ttl, slot =>
    if (slot.live? (unixMillis now)).isSome then (.ok false, slot)
    else (.ok true, some (blob, unixMillis (now + ttl)))
  | .write _ blob ttl, _ => (.ok (), some (blob, unixMillis (now + ttl)))

/-- The same over a connection, if there is one. -/
def callOver (now : Duration) (c : Call) : Option Slot → Except Error c.Answer × Option Slot
  | some slot => ((call now c slot).1, some (call now c slot).2)
  | none => (.error unreachable, none)

end Slot

/-- What is under a name, live or not. -/
def Table.slot (t : Table) (name : String) : Slot :=
  (t.row? name).map fun row => (row.blob, row.expiresAt)

/-- What a statement selects under a name is what the slot of the name shows. -/
theorem Table.select_eq (t : Table) (name : String) (now : Int) :
    t.select name now = (t.slot name).live? now := by
  rw [select, slot]
  cases t.row? name <;> rfl

/-- A row is inserted unless a live one of its name is there. -/
theorem Table.insertIfExpired_eq (t : Table) (row : Row) (now : Int) :
    t.insertIfExpired row now =
      if ((t.slot row.name).live? now).isSome then (0, t) else (1, t.upsert row) := by
  rw [insertIfExpired, slot]
  cases t.row? row.name with
  | none => rfl
  | some r =>
      by_cases h : now < r.expiresAt
      · simp [Slot.live?, h, Int.not_le.mpr h]
      · simp [Slot.live?, h, Int.not_lt.mp h]

/-- The slot of a row that was put in holds its blob and its time of expiry. -/
theorem Table.slot_upsert_self (t : Table) (row : Row) :
    (t.upsert row).slot row.name = some (row.blob, row.expiresAt) := by
  rw [slot, row?_upsert_self]
  rfl

/-- A row that is put in leaves the slots of other names alone. -/
theorem Table.slot_upsert_of_ne (t : Table) (row : Row) {name : String} (h : name ≠ row.name) :
    (t.upsert row).slot name = t.slot name := by
  rw [slot, row?_upsert_of_ne t row h]
  rfl

/-- A client does to the slot of a name what the statement does, and nothing to the others. -/
theorem keyed (p : Postgres) :
    p.backend.Keyed p.key (fun k t => t.map (Table.slot · k)) Slot.callOver where
  own now c t := by
    cases t with
    | none => rfl
    | some t =>
        cases c with
        | read name =>
            simp only [backend, callTable, Table.select_eq, Slot.callOver, Slot.call, Call.name,
              Option.map_some, nowAndExpiry]
        | create name blob ttl =>
            simp only [backend, callTable, Table.insertIfExpired_eq, Slot.callOver, Slot.call,
              Call.name, Option.map_some, nowAndExpiry]
            by_cases hlive : ((t.slot (p.key name)).live? (unixMillis now)).isSome
            · simp only [if_pos hlive]
              rfl
            · simp only [if_neg hlive, t.slot_upsert_self ⟨p.key name, _, _⟩]
              rfl
        | write name blob ttl =>
            simp only [backend, callTable, Slot.callOver, Slot.call, Call.name, Option.map_some,
              nowAndExpiry, t.slot_upsert_self ⟨p.key name, _, _⟩]
  other now c t k hk := by
    cases t with
    | none => rfl
    | some t =>
        cases c with
        | read name => rfl
        | create name blob ttl =>
            simp only [backend, callTable, Table.insertIfExpired_eq, Option.map_some, nowAndExpiry]
            split
            · rfl
            · exact congrArg some (t.slot_upsert_of_ne _ hk)
        | write name blob ttl => exact congrArg some (t.slot_upsert_of_ne _ hk)

end Postgres

end Keyring.Store
