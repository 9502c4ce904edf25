import Keyring.App
import Keyring.Proofs.Except
import Keyring.Proofs.Key.Names
import Keyring.Proofs.Rotation.Recognition
import Keyring.Proofs.Store.Places

/-! # What diagnostics show

A process logs its parts as texts. A key is shown by its name and its size, secrets by whether they
are there, a vault by nothing at all, and a store by its settings without its address. So two
processes that differ in their secrets only write the same texts, however their stores, windows and
keys are nested.

The lock of a window is taken to be free and unbroken, as it is between two operations on the
window.
-/

namespace Keyring

open Rotation Text.Quoted

/-! ## Keys and windows -/

/-- The digits of a number end where no digit follows. -/
theorem takeWhile_toDigits (n : Nat) {rest : List Char} (hrest : rest.head?.all (!·.isDigit)) :
    (Nat.toDigits 10 n ++ rest).takeWhile Char.isDigit = Nat.toDigits 10 n := by
  rw [List.takeWhile_append_of_pos fun c hc => isDigit_of_mem_toDigits hc]
  cases rest with
  | nil => rw [List.takeWhile_nil, List.append_nil]
  | cons c cs =>
    have hc : ¬ c.isDigit = true := by simpa using hrest
    rw [List.takeWhile_cons_of_neg hc, List.append_nil]

namespace Key

variable {a b : Key}

/-- A letter or a digit is shown as it is. -/
theorem showChar_of_isAlphanum {c : Char} (hc : c.isAlphanum) : showChar c = [c] := by
  rw [isAlphanum_iff, isAlpha_iff, isDigit_iff] at hc
  have hne : ∀ d : Char, d.toNat < 48 ∨ d.toNat = 92 → c ≠ d := by
    rintro d hd rfl
    omega
  rw [showChar, if_neg (hne _ (by decide)), if_neg (hne _ (by decide)), if_neg (hne _ (by decide)),
    if_neg (hne _ (by decide)), if_neg (hne _ (by decide)), if_neg (hne _ (by decide)),
    if_neg (by omega), if_pos (by omega)]

/-- A name has nothing to escape. -/
theorem toList_quote {name : String} (hname : IsName name) :
    (quote name).toList = '"' :: (name.toList ++ ['"']) := by
  have hshow : ∀ c ∈ name.toList, showChar c = [c] := by
    intro c hc
    rcases hname.symbols c hc with halphanum | rfl | rfl
    · exact showChar_of_isAlphanum halphanum
    · rfl
    · rfl
  rw [quote, String.toList_ofList, List.flatMap_congr hshow, List.flatMap_singleton']

/-- What the text of a key shows. -/
def shown (k : Key) : String × Nat := (k.id, k.bits)

/-- What a key shows is in its public half. -/
theorem shown_eq_of_samePublic (h : a.SamePublic b) : a.shown = b.shown := by
  rw [shown, shown, id_eq_of_samePublic h, bits, bits, Rsa.PrivateKey.size, Rsa.PrivateKey.size,
    h.1]

/-- The text of a key, with the name and the size in their places. -/
theorem debug_append (k : Key) (rest : List Char) : k.debug.toList ++ rest =
    "Key \x7b id: \"".toList ++
      (k.id.toList ++
        ("\", bits: ".toList ++ (Nat.toDigits 10 k.bits ++ (" \x7d".toList ++ rest)))) := by
  rw [debug, showRecord, List.map_cons, List.map_cons, List.map_nil]
  simp [toList_quote k.isName_id]

/-- The name and the size can be read off, and so can what follows. -/
theorem debug_append_inj {rest rest' : List Char}
    (h : a.debug.toList ++ rest = b.debug.toList ++ rest') : a.shown = b.shown ∧ rest = rest' := by
  rw [debug_append, debug_append, List.append_cancel_left_eq] at h
  -- All names have one length, and a blank follows the digits, so both end at the same place.
  obtain ⟨hid, h⟩ := List.append_inj h (a.isName_id.length.trans b.isName_id.length.symm)
  rw [List.append_cancel_left_eq] at h
  have hbits := congrArg (List.takeWhile Char.isDigit) h
  rw [takeWhile_toDigits _ rfl, takeWhile_toDigits _ rfl] at hbits
  rw [hbits, List.append_cancel_left_eq, List.append_cancel_left_eq] at h
  exact ⟨Prod.ext (String.toList_inj.mp hid) (toDigits_injective hbits), h⟩

/-- The text shows the name and the size, and nothing else. -/
theorem debug_eq_iff : a.debug = b.debug ↔ a.shown = b.shown := by
  constructor
  · intro h
    have hlist : a.debug.toList ++ [] = b.debug.toList ++ [] := by rw [h]
    exact (debug_append_inj hlist).1
  · intro h
    obtain ⟨hid, hbits⟩ := Prod.mk.inj h
    rw [debug, debug, hid, hbits]

end Key

namespace KeyWindow

variable {v w : KeyWindow} {ks ls : List Key}

/-- How the text of a window goes on after its first key. -/
def tailText (ks : List Key) : List Char :=
  ks.foldr (fun k rest => ", ".toList ++ (k.debug.toList ++ rest))
    "], poisoned: false, .. \x7d \x7d".toList

/-- How it goes on after the bracket. -/
def listText : List Key → List Char
  | [] => tailText []
  | k :: ks => k.debug.toList ++ tailText ks

/-- The text of a window starts alike for all windows, and lists its keys. -/
theorem toList_debug (w : KeyWindow) :
    w.debug.toList =
      "RotatingKeyStore \x7b window: RwLock \x7b data: [".toList ++ listText w.toList := by
  cases w <;> simp [debug, showRecord, showOpenRecord, showList, toList, listText, tailText]

/-- What the keys show can be read off the tail of the list, key by key. -/
theorem shown_eq_of_tailText (h : tailText ks = tailText ls) :
    ks.map Key.shown = ls.map Key.shown := by
  induction ks generalizing ls with
  | nil =>
    cases ls with
    | nil => rfl
    | cons l ls => cases h
  | cons k ks ih =>
    cases ls with
    | nil => cases h
    | cons l ls =>
      obtain ⟨hkey, hrest⟩ := Key.debug_append_inj (List.append_cancel_left h)
      rw [List.map_cons, List.map_cons, hkey, ih hrest]

/-- What the keys show can be read off the list. -/
theorem shown_eq_of_listText (h : listText ks = listText ls) :
    ks.map Key.shown = ls.map Key.shown := by
  cases ks with
  | nil =>
    cases ls with
    | nil => rfl
    | cons l ls =>
      rw [listText, listText, Key.debug_append] at h
      cases h
  | cons k ks =>
    cases ls with
    | nil =>
      rw [listText, listText, Key.debug_append] at h
      cases h
    | cons l ls =>
      obtain ⟨hkey, hrest⟩ := Key.debug_append_inj h
      rw [List.map_cons, List.map_cons, hkey, shown_eq_of_tailText hrest]

/-- The text shows what the texts of the keys show, in their order, and nothing else. -/
theorem debug_eq_iff : v.debug = w.debug ↔ v.toList.map Key.shown = w.toList.map Key.shown := by
  constructor
  · intro h
    have hlist := congrArg String.toList h
    rw [toList_debug, toList_debug] at hlist
    exact shown_eq_of_listText (List.append_cancel_left hlist)
  · intro h
    have hkeys : v.toList.map Key.debug = w.toList.map Key.debug := by
      rw [← List.forall₂_eq_eq_eq, List.forall₂_map_left_iff, List.forall₂_map_right_iff] at h ⊢
      exact h.imp fun _ _ => Key.debug_eq_iff.mpr
    rw [debug, debug, hkeys]

/-- The windows hold keys with the same public halves, in the same order. -/
def Alike (v w : KeyWindow) : Prop := List.Forall₂ Key.SamePublic v.toList w.toList

/-- Windows with the same public halves have one text. -/
theorem Alike.debug_eq (h : v.Alike w) : v.debug = w.debug := by
  rw [debug_eq_iff, ← List.forall₂_eq_eq_eq, List.forall₂_map_left_iff, List.forall₂_map_right_iff]
  exact List.Forall₂.imp (fun _ _ => Key.shown_eq_of_samePublic) h

end KeyWindow

/-! ## Secrets -/

namespace SecretSettings

variable {s t : SecretSettings}

/-- The same secrets are there, whatever they are. -/
def Alike (s t : SecretSettings) : Prop :=
  s.secretKeyBase.isSome = t.secretKeyBase.isSome ∧ s.encryptionKey.isSome = t.encryptionKey.isSome

/-- Settings with empty secrets. -/
def ofPresence (base key : Bool) : SecretSettings :=
  ⟨if base then some "" else none, if key then some "" else none⟩

/-- Empty secrets are shown as any others. -/
theorem debug_eq_ofPresence (s : SecretSettings) :
    s.debug = (ofPresence s.secretKeyBase.isSome s.encryptionKey.isSome).debug := by
  rcases s with ⟨_ | _, _ | _⟩ <;> rfl

/-- The text shows which secrets are there, and nothing else. -/
theorem debug_eq_iff : s.debug = t.debug ↔ s.Alike t := by
  have hpresence : ∀ base key base' key' : Bool,
      (ofPresence base key).debug = (ofPresence base' key').debug ↔ base = base' ∧ key = key' := by
    decide
  rw [debug_eq_ofPresence s, debug_eq_ofPresence t, hpresence, Alike]

end SecretSettings

/-! ## Stores -/

namespace Store

/-- A store as a process holds it: a backend, under any number of seals. -/
inductive Stack
  | memory (m : Memory) (counted : Nat)
  | redis (client : Redis)
  | postgres (client : Postgres) (connections idle : Nat)
  /-- A store from elsewhere, of which only its text is known. -/
  | foreign (text : String)
  | sealed (vault : Vault) (inner : Stack)

namespace Stack

variable {s t : Stack}

/-- The text of a store in diagnostics. -/
def debug : Stack → String
  | memory m counted => m.debug counted
  | redis client => client.debug
  | postgres client connections idle => client.debug connections idle
  | foreign text => text
  | sealed _ inner => Sealed.debug inner.debug

/-- A store that was just opened. -/
def ofOpened : Opened → Stack
  | .memory m => memory m m.ledger.entries.length
  | .redis client _ => redis client
  | .postgres client _ => postgres client 0 0

/-- A store that was just opened shows what was opened. -/
theorem debug_ofOpened (o : Opened) : (ofOpened o).debug = o.debug := by
  cases o <;> rfl

/-- The stores are nested alike and have the same bounds, counts and spaces of names, whatever their
addresses, the keys of their seals and the blobs in them are. -/
inductive Alike : Stack → Stack → Prop
  | memory {m m' : Memory} (counted : Nat) (hsize : m.maxSize = m'.maxSize) :
      Alike (memory m counted) (memory m' counted)
  | redis {client client' : Redis} (hspace : client.spaceName = client'.spaceName) :
      Alike (redis client) (redis client')
  | postgres {client client' : Postgres} (connections idle : Nat)
      (hspace : client.spaceName = client'.spaceName) :
      Alike (postgres client connections idle) (postgres client' connections idle)
  | foreign (text : String) : Alike (foreign text) (foreign text)
  | sealed (vault vault' : Vault) {inner inner' : Stack} (hinner : Alike inner inner') :
      Alike (sealed vault inner) (sealed vault' inner')

/-- Alike stores have one text, by induction on their seals. -/
theorem Alike.debug_eq (h : s.Alike t) : s.debug = t.debug := by
  induction h with
  | memory counted hsize => rw [debug, debug, Memory.debug, Memory.debug, hsize]
  | redis hspace => rw [debug, debug, Redis.debug, Redis.debug, hspace]
  | postgres connections idle hspace => rw [debug, debug, Postgres.debug, Postgres.debug, hspace]
  | foreign text => rfl
  | sealed vault vault' _ ih => rw [debug, debug, ih]

end Stack

end Store

namespace StoreSettings

/-- The settings differ at most in the address. -/
def Alike (s t : StoreSettings) : Prop := ∃ uri, t = { s with uri }

end StoreSettings

namespace Store

variable {s t : StoreSettings} {o o' : Opened}

/-- The memory store takes nothing but its bound from the settings. -/
theorem eq_of_openStore_memory (hprovider : Provider.ofName? s.provider = some .memory)
    (h : openStore s = .ok o) :
    o = .memory { maxSize := s.maxSize.getD 10000 } := by
  rw [openStore, hprovider] at h
  refine (Except.ok.inj h).symm.trans ?_
  cases s.maxSize <;> rfl

/-- The address is all that a Redis client takes from the locator. -/
theorem exists_of_openStore_redis (hprovider : Provider.ofName? s.provider = some .redis)
    (h : openStore s = .ok o) :
    ∃ client, o = .redis client none ∧ client.spaceName = spaceOf (s.spaceName.getD "") := by
  simp only [openStore, hprovider] at h
  split at h
  · cases h
  · split at h
    · next client hconnect =>
        exact ⟨client, (Except.ok.inj h).symm, Redis.spaceName_of_connect hconnect⟩
    · cases h

/-- So it is with a PostgreSQL client. -/
theorem exists_of_openStore_postgres (hprovider : Provider.ofName? s.provider = some .postgres)
    (h : openStore s = .ok o) :
    ∃ client, o = .postgres client none ∧ client.spaceName = spaceOf (s.spaceName.getD "") := by
  simp only [openStore, hprovider] at h
  split at h
  · cases h
  · split at h
    · next client hconnect =>
        exact ⟨client, (Except.ok.inj h).symm, Postgres.spaceName_of_connect hconnect⟩
    · cases h

/-- Settings that differ in the address open stores that do. -/
theorem Stack.alike_of_openStore (h : s.Alike t) (hs : openStore s = .ok o)
    (ht : openStore t = .ok o') : (ofOpened o).Alike (ofOpened o') := by
  obtain ⟨uri, rfl⟩ := h
  cases hprovider : Provider.ofName? s.provider with
  | none =>
    rw [openStore, hprovider] at hs
    cases hs
  | some provider =>
    cases provider with
    | memory =>
      obtain rfl := eq_of_openStore_memory hprovider hs
      obtain rfl := eq_of_openStore_memory (s := { s with uri }) hprovider ht
      exact .memory _ rfl
    | redis =>
      obtain ⟨client, rfl, hspace⟩ := exists_of_openStore_redis hprovider hs
      obtain ⟨client', rfl, hspace'⟩ := exists_of_openStore_redis (s := { s with uri }) hprovider ht
      exact .redis (hspace.trans hspace'.symm)
    | postgres =>
      obtain ⟨client, rfl, hspace⟩ := exists_of_openStore_postgres hprovider hs
      obtain ⟨client', rfl, hspace'⟩ :=
        exists_of_openStore_postgres (s := { s with uri }) hprovider ht
      exact .postgres 0 0 (hspace.trans hspace'.symm)

end Store

/-! ## Processes -/

/-- A rotater shows its store and its own settings. -/
theorem Rotation.Rotater.debug_eq_of_alike (r : Rotater) {s t : Store.Stack} (h : s.Alike t) :
    r.debug s.debug = r.debug t.debug := by
  rw [h.debug_eq]

/-- The settings differ at most in the address of the store and in the secrets that are there in
both. -/
structure Settings.Alike (s t : Settings) : Prop where
  rotation_eq : s.rotation = t.rotation
  blobStore : s.blobStore.Alike t.blobStore
  secrets : s.secrets.Alike t.secrets
  logging_eq : s.logging = t.logging

namespace App

variable {a b : App} {s t : Settings}

/-- The processes rotate alike, started in one bucket and hold windows with the same public halves.
Their settings and their vaults may be any. -/
structure Alike (a b : App) : Prop where
  rotater_eq : a.plan.rotater = b.plan.rotater
  restored_eq : a.restored = b.restored
  window : a.window.Alike b.window

/-- Alike processes over alike stores have one text. -/
theorem debug_eq_of_alike (h : a.Alike b) {x y : Store.Stack} (hstore : x.Alike y) :
    a.debug x.debug = b.debug y.debug := by
  rw [debug, debug, hstore.debug_eq, h.window.debug_eq, h.rotater_eq, h.restored_eq]

/-- The rotater of a plan is made from the settings of the rotation. -/
theorem create_of_ofSettings {p : Plan} (h : Plan.ofSettings s = .ok p) :
    Rotater.create s.rotation.interval s.rotation.keyStrength = .ok p.rotater := by
  obtain ⟨vault, -, h⟩ := Except.bind_eq_ok_iff.mp h
  obtain ⟨r, hr, h⟩ := Except.bind_eq_ok_iff.mp h
  obtain rfl := Except.ok.inj h
  exact hr

/-- Processes from alike settings are alike if their windows are. -/
theorem alike_of_settings (h : s.Alike t) (ha : Plan.ofSettings s = .ok a.plan)
    (hb : Plan.ofSettings t = .ok b.plan) (hrestored : a.restored = b.restored)
    (hwindow : a.window.Alike b.window) : a.Alike b := by
  have hcreate := create_of_ofSettings ha
  rw [h.rotation_eq, create_of_ofSettings hb] at hcreate
  exact ⟨(Except.ok.inj hcreate).symm, hrestored, hwindow⟩

/-- What was opened from such settings shows the same in both processes. -/
theorem debug_eq_of_settings (h : s.Alike t) (ha : Plan.ofSettings s = .ok a.plan)
    (hb : Plan.ofSettings t = .ok b.plan) (hrestored : a.restored = b.restored)
    (hwindow : a.window.Alike b.window) {o o' : Store.Opened} (ho : openStore s = .ok o)
    (ho' : openStore t = .ok o') : a.debug o.debug = b.debug o'.debug := by
  have hstore := Store.Stack.alike_of_openStore h.blobStore (Except.mapError_eq_ok_iff.mp ho)
    (Except.mapError_eq_ok_iff.mp ho')
  rw [← Store.Stack.debug_ofOpened, ← Store.Stack.debug_ofOpened]
  exact debug_eq_of_alike (alike_of_settings h ha hb hrestored hwindow) hstore

end App

/-- Diagnostics do not depend on secrets. Keys and windows show names and sizes, which are the same
for keys with one public half, vaults show nothing, and settings show which secrets are there.
Stores that differ in addresses, seals and blobs, rotaters over such stores, and processes that hold
such windows and stores have one text. So have two processes whose settings differ in the address of
the store and in secrets. -/
theorem debug_independent_of_secrets :
    (∀ a b : Key, (a.SamePublic b → a.debug = b.debug) ∧ (a.debug = b.debug ↔ a.shown = b.shown)) ∧
    (∀ v w : KeyWindow, (v.Alike w → v.debug = w.debug) ∧
      (v.debug = w.debug ↔ v.toList.map Key.shown = w.toList.map Key.shown)) ∧
    (∀ x y : Vault, x.debug = y.debug) ∧
    (∀ s t : SecretSettings, s.debug = t.debug ↔ s.Alike t) ∧
    (∀ x y : Store.Stack, x.Alike y → x.debug = y.debug) ∧
    (∀ (r : Rotater) (x y : Store.Stack), x.Alike y → r.debug x.debug = r.debug y.debug) ∧
    (∀ a b : App, a.Alike b → ∀ x y : Store.Stack, x.Alike y → a.debug x.debug = b.debug y.debug) ∧
    ∀ (s t : Settings) (a b : App) (o o' : Store.Opened), s.Alike t →
      App.Plan.ofSettings s = .ok a.plan → App.Plan.ofSettings t = .ok b.plan →
      a.restored = b.restored →
      a.window.Alike b.window → App.openStore s = .ok o → App.openStore t = .ok o' →
        s.secrets.debug = t.secrets.debug ∧ a.debug o.debug = b.debug o'.debug := by
  refine ⟨?keys, ?windows, ?vaults, ?secrets, ?stores, ?rotaters, ?processes, ?settings⟩
  case keys =>
    exact fun a b => ⟨fun h => Key.debug_eq_iff.mpr (Key.shown_eq_of_samePublic h),
      Key.debug_eq_iff⟩
  case windows => exact fun v w => ⟨KeyWindow.Alike.debug_eq, KeyWindow.debug_eq_iff⟩
  case vaults => exact fun x y => rfl
  case secrets => exact fun s t => SecretSettings.debug_eq_iff
  case stores => exact fun x y => Store.Stack.Alike.debug_eq
  case rotaters => exact fun r x y => r.debug_eq_of_alike
  case processes => exact fun a b h x y => App.debug_eq_of_alike h
  case settings =>
    intro s t a b o o' h ha hb hrestored hwindow ho ho'
    exact ⟨SecretSettings.debug_eq_iff.mpr h.secrets,
      App.debug_eq_of_settings h ha hb hrestored hwindow ho ho'⟩

/-! ## Two processes -/

/-- Settings of a process on a Redis server. -/
def Settings.onRedis (uri key : String) : Settings where
  blobStore := { provider := "redis", uri := some uri, spaceName := some "keys" }
  secrets := { encryptionKey := some key }

/-- Every address that can be parsed opens a store on a Redis server. -/
theorem App.openStore_onRedis {uri key : String} {address : Store.Redis.Address}
    (haddress : Store.Redis.Address.parse? uri = some address) :
    openStore (.onRedis uri key) = .ok (.redis ⟨address, some "keys"⟩ none) := by
  have hprovider : Store.Provider.ofName? "redis" = some .redis :=
    Store.Provider.ofName?_name .redis
  simp only [openStore, Store.openStore, Settings.onRedis, hprovider, Store.Redis.connect, haddress]
  rfl

/-- Settings with a password and a master key. -/
def Settings.first : Settings :=
  .onRedis "redis://:first@[::1]" "1111111111111111111111111111111111111111111111111111111111111111"

/-- Settings with other ones, and with another server. -/
def Settings.second : Settings :=
  .onRedis "redis://:second@[::2]:7000"
    "2222222222222222222222222222222222222222222222222222222222222222"

/-- Two processes whose passwords, servers, master keys and private keys differ show the same, and
so do their parts. -/
theorem debug_first_eq_second : ∃ (a b : App) (o o' : Store.Opened),
    App.Plan.ofSettings .first = .ok a.plan ∧ App.Plan.ofSettings .second = .ok b.plan ∧
    App.openStore .first = .ok o ∧ App.openStore .second = .ok o' ∧
    a.plan.vault ≠ b.plan.vault ∧ o ≠ o' ∧ a.window = .two .small85 .small55 ∧
    b.window = .two .small85 .turned55 ∧
    a.debug o.debug = b.debug o'.debug ∧
    Settings.first.secrets.debug = Settings.second.secrets.debug ∧
    Key.small55.debug = Key.turned55.debug ∧ a.window.debug = b.window.debug ∧
    a.plan.vault.debug = b.plan.vault.debug ∧
    a.plan.rotater.debug
      (Store.Stack.sealed a.plan.vault (.sealed b.plan.vault (.ofOpened o))).debug =
      a.plan.rotater.debug
        (Store.Stack.sealed b.plan.vault (.sealed a.plan.vault (.ofOpened o'))).debug := by
  have hfirst : Store.Redis.Address.parse? "redis://:first@[::1]" =
      some ⟨.network "::1" 6379, 0, none, some "first"⟩ := by decide +kernel
  have hsecond : Store.Redis.Address.parse? "redis://:second@[::2]:7000" =
      some ⟨.network "::2" 7000, 0, none, some "second"⟩ := by decide +kernel
  have hkeys : Key.small55.SamePublic .turned55 := by decide
  have hwindow : (KeyWindow.two .small85 .small55).Alike (.two .small85 .turned55) :=
    .cons ⟨rfl, rfl⟩ (.cons hkeys .nil)
  have hsettings : Settings.first.Alike .second := ⟨rfl, ⟨_, rfl⟩, ⟨rfl, rfl⟩, rfl⟩
  obtain ⟨forKeys, forWindows, forVaults, -, -, forRotaters, -, forSettings⟩ :=
    debug_independent_of_secrets
  let rotater : Rotater := ⟨.ofSeconds 3600, 2048, by decide, by decide⟩
  let a : App := ⟨⟨.first, ⟨List.replicate 32 0x11, rfl⟩, rotater⟩, .two .small85 .small55, .zero⟩
  let b : App := ⟨⟨.second, ⟨List.replicate 32 0x22, rfl⟩, rotater⟩, .two .small85 .turned55, .zero⟩
  have ha : App.Plan.ofSettings .first = .ok a.plan := rfl
  have hb : App.Plan.ofSettings .second = .ok b.plan := rfl
  have ho : App.openStore .first = .ok _ := App.openStore_onRedis hfirst
  have ho' : App.openStore .second = .ok _ := App.openStore_onRedis hsecond
  obtain ⟨hsecrets, hdebug⟩ := forSettings _ _ a b _ _ hsettings ha hb rfl hwindow ho ho'
  refine ⟨a, b, _, _, ha, hb, ho, ho', by decide, by decide, rfl, rfl, hdebug, hsecrets,
    (forKeys _ _).1 hkeys, (forWindows _ _).1 hwindow, forVaults _ _, forRotaters _ _ _ ?_⟩
  exact .sealed _ _ (.sealed _ _ (.redis rfl))

end Keyring
