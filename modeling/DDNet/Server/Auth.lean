/-
The keys of the remote console and the clients that are logged in with them
(`CAuthManager`, `engine/server/authmanager.cpp`, and `engine/server/server.cpp`).

The clients refer to the keys by their place in a vector, and cache the level of their key.  Each key
has a number here that it keeps for its life, so that one can say which key a client has logged in
with.  A client that gives no name logs in with one of the default keys and gets the level that the
default key was made for; `auth_change` can give this key another level, and then the cached level
is not the level of the key (`login_changed_default`).
-/
import Mathlib.Logic.Function.Basic
import Mathlib.Data.List.Basic
import Mathlib.Data.List.Nodup
import DDNet.Server.Authed

namespace DDNet

/-! ### The keys -/

/-- `CAuthManager::CKey`, with the number of the key. -/
structure CKey (Digest : Type) where
  ident : List UInt8
  pw : Digest
  salt : List UInt8
  level : AuthLevel
  number : ℕ

/-- The size of `m_aIdent`. -/
def identSize : ℕ := 64

/-- `CAuthManager`; `m_aDefault` has a place for each level, and `numbers` counts the keys that have
been added. -/
structure CAuthManager (Digest : Type) where
  keys : List (CKey Digest)
  default : AuthLevel → Option ℕ
  numbers : ℕ

namespace CAuthManager

variable {Digest : Type}

/-- The constructor. -/
def empty : CAuthManager Digest := ⟨[], fun _ => none, 0⟩

/-- `FindKey`. -/
def findKey (manager : CAuthManager Digest) (ident : List UInt8) : Option ℕ :=
  manager.keys.findIdx? fun key => strComp key.ident ident == .eq

/-- `AddKeyHash`: the keys and the place of the new one. -/
def addKeyHash (manager : CAuthManager Digest) (ident : List UInt8) (hash : Digest) (salt : List UInt8)
    (level : AuthLevel) : CAuthManager Digest × Option ℕ :=
  if (manager.findKey ident).isSome then
    (manager, none)
  else
    ({ manager with
        keys := manager.keys ++ [⟨strCopy identSize ident, hash, salt, level, manager.numbers⟩]
        numbers := manager.numbers + 1 }, some manager.keys.length)

/-- `RemoveKey`. -/
def removeKey (manager : CAuthManager Digest) (slot : ℕ) : CAuthManager Digest :=
  { manager with
    keys := manager.keys.eraseIdx slot
    -- update indices of default keys
    default := fun level =>
      match manager.default level with
      | none => none
      | some place => if place = slot then none else if place > slot then some (place - 1) else some place }

/-- `UpdateKeyHash`. -/
def updateKeyHash (manager : CAuthManager Digest) (slot : ℕ) (hash : Digest) (salt : List UInt8)
    (level : AuthLevel) : CAuthManager Digest :=
  { manager with
    keys := manager.keys.modify slot fun key => { key with pw := hash, salt := salt, level := level } }

section Password

variable (hashPassword : List UInt8 → List UInt8 → Digest)

/-- `AddKey`, with the random salt. -/
def addKey (manager : CAuthManager Digest) (ident pw salt : List UInt8) (level : AuthLevel) :
    CAuthManager Digest × Option ℕ :=
  manager.addKeyHash ident (hashPassword pw salt) salt level

/-- `UpdateKey`, with the random salt. -/
def updateKey (manager : CAuthManager Digest) (slot : ℕ) (pw salt : List UInt8) (level : AuthLevel) :
    CAuthManager Digest :=
  manager.updateKeyHash slot (hashPassword pw salt) salt level

/-- `CheckKey`. -/
def checkKey [DecidableEq Digest] (manager : CAuthManager Digest) (slot : Option ℕ) (pw : List UInt8) : Bool :=
  match slot.bind (manager.keys[·]?) with
  | none => false
  | some key => key.pw == hashPassword pw key.salt

/-- The names of the default keys. -/
def defaultIdent : AuthLevel → List UInt8
  | .admin => ofChars ['d', 'e', 'f', 'a', 'u', 'l', 't', '_', 'a', 'd', 'm', 'i', 'n']
  | .mod => ofChars ['d', 'e', 'f', 'a', 'u', 'l', 't', '_', 'm', 'o', 'd']
  | .helper => ofChars ['d', 'e', 'f', 'a', 'u', 'l', 't', '_', 'h', 'e', 'l', 'p', 'e', 'r']

/-- `AddDefaultKey`. -/
def addDefaultKey (manager : CAuthManager Digest) (level : AuthLevel) (pw salt : List UInt8) :
    CAuthManager Digest :=
  if (manager.default level).isSome then
    manager -- already exists
  else
    let (manager, slot) := manager.addKey hashPassword (defaultIdent level) pw salt level
    { manager with default := Function.update manager.default level slot }

/-- `NumDefaultKeys` of `Init`. -/
def numDefaultKeys (svRconPassword svRconModPassword svRconHelperPassword : List UInt8) : ℕ :=
  (if svRconPassword ≠ [] then 1 else 0) + (if svRconModPassword ≠ [] then 1 else 0) +
    (if svRconHelperPassword ≠ [] then 1 else 0)

/-- `Init`, with the passwords of the configuration and the random password. -/
def init (manager : CAuthManager Digest) (svRconPassword svRconModPassword svRconHelperPassword : List UInt8)
    (random salt : List UInt8) : CAuthManager Digest :=
  if manager.keys.length = numDefaultKeys svRconPassword svRconModPassword svRconHelperPassword ∧
      svRconPassword = [] then
    manager.addDefaultKey hashPassword .admin random salt
  else
    manager

end Password

end CAuthManager

/-! ### The clients -/

namespace CServer

/-- What `CClient` has about its key; `loginKey` is the number of the key that it has logged in
with. -/
structure AuthClient where
  authed : Authed
  authKey : Option ℕ
  sixup : Bool
  loginKey : ℕ
deriving DecidableEq

/-- The keys and the clients. -/
structure AuthServer (Digest : Type) where
  manager : CAuthManager Digest
  clients : ClientId → AuthClient

/-- What can happen to the keys and to the clients that are logged in.  The random salts, and the
passwords of the configuration before a change, are arbitrary. -/
inductive AuthOp (Digest : Type)
  /-- `CAuthManager::Init` -/
  | init (svRconPassword svRconModPassword svRconHelperPassword random salt : List UInt8)
  /-- `auth_add` -/
  | authAdd (ident : List UInt8) (level : AuthLevel) (pw salt : List UInt8)
  /-- `auth_add_p` -/
  | authAddHashed (ident : List UInt8) (level : AuthLevel) (hash : Digest) (salt : List UInt8)
  /-- `auth_change` -/
  | authUpdate (ident : List UInt8) (level : AuthLevel) (pw salt : List UInt8)
  /-- `auth_change_p` -/
  | authUpdateHashed (ident : List UInt8) (level : AuthLevel) (hash : Digest) (salt : List UInt8)
  /-- `auth_remove` -/
  | authRemove (ident : List UInt8)
  /-- `sv_rcon_password`, `sv_rcon_mod_password` and `sv_rcon_helper_password` -/
  | rconPassword (level : AuthLevel) (current new salt : List UInt8)
  /-- `NETMSG_RCON_AUTH` -/
  | rconAuth (client : ClientId) (name pw : List UInt8)
  /-- `logout` -/
  | logout (client : ClientId)
  /-- `NewClientCallback` -/
  | join (client : ClientId) (sixup : Bool)
  /-- `ClientRejoinCallback` and `NewClientNoAuthCallback` -/
  | rejoin (client : ClientId)
  /-- `DelClientCallback` -/
  | drop (client : ClientId)
  /-- `SetTimedOut`, where the network takes the hand-over -/
  | setTimedOut (client orig : ClientId)

/-- `LogoutClient`, as far as the keys are concerned. -/
def AuthClient.logout (client : AuthClient) : AuthClient := { client with authed := .no, authKey := none }

namespace AuthServer

variable {Digest : Type}

/-- Change one client. -/
def modify (server : AuthServer Digest) (c : ClientId) (f : AuthClient → AuthClient) : AuthServer Digest :=
  { server with clients := Function.update server.clients c (f (server.clients c)) }

/-- `LogoutKey`. -/
def logoutKey (server : AuthServer Digest) (key : ℕ) : AuthServer Digest :=
  { server with clients := fun c =>
      if (server.clients c).authKey = some key then (server.clients c).logout else server.clients c }

/-- What `AuthRemoveKey` does to the place of a key that a client has. -/
def shiftKey (slot : ℕ) : Option ℕ → Option ℕ
  | none => none
  | some place => if place = slot then none else if place > slot then some (place - 1) else some place

/-- `AuthRemoveKey`. -/
def authRemoveKey (server : AuthServer Digest) (slot : ℕ) : AuthServer Digest :=
  let server := { server with manager := server.manager.removeKey slot }
  let server := server.logoutKey slot
  -- update indices
  { server with clients := fun c =>
      { server.clients c with authKey := shiftKey slot (server.clients c).authKey } }

section Password

variable (hashPassword : List UInt8 → List UInt8 → Digest)

/-- `ConchainRconPasswordChangeGeneric`. -/
def rconPasswordChange (server : AuthServer Digest) (level : AuthLevel) (current new salt : List UInt8) :
    AuthServer Digest :=
  if strComp current new = .eq then
    server
  else
    match server.manager.default level with
    | none =>
        if new ≠ [] then
          { server with manager := server.manager.addDefaultKey hashPassword level new salt }
        else
          server
    | some slot =>
        if new = [] then
          server.authRemoveKey slot
        else
          { server with manager := server.manager.updateKey hashPassword slot new salt level }.logoutKey slot

/-- The place of the key and the level with which a client logs in. -/
def findLogin [DecidableEq Digest] (manager : CAuthManager Digest) (name pw : List UInt8) :
    Option (ℕ × AuthLevel) :=
  if name = [] then
    if manager.checkKey hashPassword (manager.default .admin) pw then
      (manager.default .admin).map (·, .admin)
    else if manager.checkKey hashPassword (manager.default .mod) pw then
      (manager.default .mod).map (·, .mod)
    else if manager.checkKey hashPassword (manager.default .helper) pw then
      (manager.default .helper).map (·, .helper)
    else
      none
  else if manager.checkKey hashPassword (manager.findKey name) pw then
    (manager.findKey name).bind fun slot => manager.keys[slot]?.map fun key => (slot, key.level)
  else
    none

/-- The client logs in with the key at a place, unless it has the level already. -/
def loginClient (manager : CAuthManager Digest) (client : AuthClient) (slot : ℕ) (level : AuthLevel) :
    AuthClient :=
  if client.authed ≠ level.authed then
    { client with
      authed := level.authed
      authKey := some slot
      loginKey := (manager.keys[slot]?.map (·.number)).getD 0 }
  else
    client

/-- `NETMSG_RCON_AUTH`. -/
def rconAuth [DecidableEq Digest] (server : AuthServer Digest) (c : ClientId) (name pw : List UInt8) :
    AuthServer Digest :=
  server.modify c fun client =>
    let name := if client.sixup then [] else name
    match findLogin hashPassword server.manager name pw with
    | some (slot, level) => loginClient server.manager client slot level
    | none => client

/-- `SetTimedOut` of the server. -/
def setTimedOut (server : AuthServer Digest) (c orig : ClientId) : AuthServer Digest :=
  let server := server.modify c fun client => { client with sixup := (server.clients orig).sixup }
  let server := if (server.clients orig).authed ≠ .no then server.modify c AuthClient.logout else server
  let server := server.modify orig fun client => { client.logout with sixup := false }
  server.modify c fun client => { client with authed := .no }

/-- One operation. -/
def step [DecidableEq Digest] (server : AuthServer Digest) : AuthOp Digest → AuthServer Digest
  | .init svRconPassword svRconModPassword svRconHelperPassword random salt =>
      let manager := server.manager.init hashPassword svRconPassword svRconModPassword
        svRconHelperPassword random salt
      { server with manager := manager }
  | .authAdd ident level pw salt =>
      { server with manager := (server.manager.addKey hashPassword ident pw salt level).1 }
  | .authAddHashed ident level hash salt =>
      { server with manager := (server.manager.addKeyHash ident hash salt level).1 }
  | .authUpdate ident level pw salt =>
      match server.manager.findKey ident with
      | none => server
      | some slot =>
          { server with manager := server.manager.updateKey hashPassword slot pw salt level }.logoutKey slot
  | .authUpdateHashed ident level hash salt =>
      match server.manager.findKey ident with
      | none => server
      | some slot =>
          { server with manager := server.manager.updateKeyHash slot hash salt level }.logoutKey slot
  | .authRemove ident =>
      match server.manager.findKey ident with
      | none => server
      | some slot => server.authRemoveKey slot
  | .rconPassword level current new salt => server.rconPasswordChange hashPassword level current new salt
  | .rconAuth c name pw => server.rconAuth hashPassword c name pw
  | .logout c => server.modify c AuthClient.logout
  | .join c sixup => server.modify c fun client => { client.logout with sixup := sixup }
  | .rejoin c => server.modify c AuthClient.logout
  | .drop c => server.modify c fun client => { client.logout with sixup := false }
  | .setTimedOut c orig => server.setTimedOut c orig

/-- Some operations. -/
def run [DecidableEq Digest] : List (AuthOp Digest) → AuthServer Digest → AuthServer Digest
  | [], server => server
  | op :: ops, server => run ops (server.step hashPassword op)

end Password

/-- A server without keys and clients. -/
def init : AuthServer Digest := ⟨CAuthManager.empty, fun _ => ⟨.no, none, false, 0⟩⟩

end AuthServer

/-! ### What is true at all times -/

variable {Digest : Type}

/-- If the client is logged in, it has the place of the key that it has logged in with, and the level
of this key. -/
def KeyOk (manager : CAuthManager Digest) (client : AuthClient) : Prop :=
  client.authed ≠ .no → ∃ slot key, client.authKey = some slot ∧ manager.keys[slot]? = some key ∧
    key.number = client.loginKey ∧ client.authed = key.level.authed

/-- The clients and the keys go together, and no two keys have the same number. -/
structure Consistent (server : AuthServer Digest) : Prop where
  clients : ∀ c, KeyOk server.manager (server.clients c)
  numbers : (server.manager.keys.map CKey.number).Nodup
  fresh : ∀ key ∈ server.manager.keys, key.number < server.manager.numbers

/-- The second manager has the keys of the first one, and perhaps a new one. -/
def Grows (manager manager' : CAuthManager Digest) : Prop :=
  manager'.keys = manager.keys ∧ manager'.numbers = manager.numbers ∨
    ∃ key, manager'.keys = manager.keys ++ [key] ∧ key.number = manager.numbers ∧
      manager'.numbers = manager.numbers + 1

lemma keyOk_no {manager : CAuthManager Digest} {client : AuthClient} (h : client.authed = .no) :
    KeyOk manager client := fun hne => absurd h hne

lemma grows_addKeyHash (manager : CAuthManager Digest) (ident : List UInt8) (hash : Digest)
    (salt : List UInt8) (level : AuthLevel) : Grows manager (manager.addKeyHash ident hash salt level).1 := by
  rw [CAuthManager.addKeyHash]
  split_ifs
  · exact .inl ⟨rfl, rfl⟩
  · exact .inr ⟨_, rfl, rfl, rfl⟩

lemma grows_addDefaultKey (hashPassword : List UInt8 → List UInt8 → Digest) (manager : CAuthManager Digest)
    (level : AuthLevel) (pw salt : List UInt8) :
    Grows manager (manager.addDefaultKey hashPassword level pw salt) := by
  rw [CAuthManager.addDefaultKey]
  split_ifs
  · exact .inl ⟨rfl, rfl⟩
  · exact grows_addKeyHash manager _ _ _ _

lemma Consistent.grow {server : AuthServer Digest} {manager : CAuthManager Digest}
    (h : Consistent server) (hgrows : Grows server.manager manager) :
    Consistent { server with manager := manager } := by
  rcases hgrows with ⟨hkeys, hnumbers⟩ | ⟨key, hkeys, hnumber, hnumbers⟩
  · refine ⟨fun c => ?_, ?_, ?_⟩
    · have hc := h.clients c
      rw [KeyOk] at hc ⊢
      rwa [hkeys]
    · rw [hkeys]
      exact h.numbers
    · rw [hkeys, hnumbers]
      exact h.fresh
  · refine ⟨fun c hauthed => ?_, ?_, ?_⟩
    · obtain ⟨slot, key', hslot, hkey', hrest⟩ := h.clients c hauthed
      refine ⟨slot, key', hslot, ?_, hrest⟩
      rw [hkeys, List.getElem?_append_left (List.getElem?_eq_some_iff.1 hkey').1]
      exact hkey'
    · rw [hkeys, List.map_append, List.nodup_append]
      refine ⟨h.numbers, List.nodup_singleton _, ?_⟩
      intro a ha b hb
      obtain ⟨other, hother, rfl⟩ := List.mem_map.1 ha
      rw [List.map_singleton, List.mem_singleton] at hb
      have hlt := h.fresh other hother
      omega
    · intro other hother
      rw [hkeys, List.mem_append, List.mem_singleton] at hother
      rw [hnumbers]
      rcases hother with hother | rfl
      · exact (h.fresh other hother).trans (Nat.lt_succ_self _)
      · omega

lemma Consistent.modify {server : AuthServer Digest} (h : Consistent server) (c : ClientId)
    {f : AuthClient → AuthClient} (hf : KeyOk server.manager (f (server.clients c))) :
    Consistent (server.modify c f) := by
  refine ⟨fun d => ?_, h.numbers, h.fresh⟩
  show KeyOk server.manager (Function.update server.clients c (f (server.clients c)) d)
  by_cases hd : d = c
  · subst hd
    rw [Function.update_self]
    exact hf
  · rw [Function.update_of_ne hd]
    exact h.clients d

/-- All clients with the key are logged out when it changes. -/
lemma Consistent.updateKeyHash {server : AuthServer Digest} (h : Consistent server) (slot : ℕ)
    (hash : Digest) (salt : List UInt8) (level : AuthLevel) :
    Consistent ({ server with
      manager := server.manager.updateKeyHash slot hash salt level }.logoutKey slot) := by
  have hget : ∀ place : ℕ, place ≠ slot →
      (server.manager.updateKeyHash slot hash salt level).keys[place]? = server.manager.keys[place]? := by
    intro place hplace
    show (server.manager.keys.modify slot _)[place]? = _
    rw [List.getElem?_modify]
    simp [hplace.symm]
  have hnumber : (server.manager.updateKeyHash slot hash salt level).keys.map CKey.number =
      server.manager.keys.map CKey.number := by
    refine List.ext_getElem? fun place => ?_
    show ((server.manager.keys.modify slot _).map _)[place]? = _
    rw [List.getElem?_map, List.getElem?_map, List.getElem?_modify]
    cases server.manager.keys[place]? with
    | none => rfl
    | some key =>
      by_cases hplace : slot = place
      · simp [hplace]
      · simp [hplace]
  refine ⟨fun c hauthed => ?_, ?_, fun key hkey => ?_⟩
  · simp only [AuthServer.logoutKey] at hauthed ⊢
    by_cases hkey : (server.clients c).authKey = some slot
    · rw [if_pos hkey] at hauthed
      exact absurd rfl hauthed
    · rw [if_neg hkey] at hauthed ⊢
      obtain ⟨place, key, hplace, hget', hrest⟩ := h.clients c hauthed
      have hne : place ≠ slot := fun heq => hkey (heq ▸ hplace)
      exact ⟨place, key, hplace, (hget place hne).trans hget', hrest⟩
  · show ((server.manager.updateKeyHash slot hash salt level).keys.map CKey.number).Nodup
    rw [hnumber]
    exact h.numbers
  · have hmem : key.number ∈ server.manager.keys.map CKey.number := hnumber ▸ List.mem_map_of_mem hkey
    obtain ⟨old, hold, heq⟩ := List.mem_map.1 hmem
    rw [← heq]
    exact h.fresh old hold

/-- The places of the keys behind a removed one are shifted with them. -/
lemma Consistent.removeKey {server : AuthServer Digest} (h : Consistent server) (slot : ℕ) :
    Consistent (server.authRemoveKey slot) := by
  have hsub : (server.manager.keys.eraseIdx slot).Sublist server.manager.keys := List.eraseIdx_sublist _ _
  refine ⟨fun c hauthed => ?_, h.numbers.sublist (hsub.map _), fun key hkey => h.fresh key (hsub.subset hkey)⟩
  simp only [AuthServer.authRemoveKey, AuthServer.logoutKey] at hauthed ⊢
  by_cases hkey : (server.clients c).authKey = some slot
  · rw [if_pos hkey] at hauthed
    exact absurd rfl hauthed
  · rw [if_neg hkey] at hauthed ⊢
    obtain ⟨place, key, hplace, hget, hrest⟩ := h.clients c hauthed
    have hne : place ≠ slot := fun heq => hkey (heq ▸ hplace)
    rw [hplace]
    show ∃ place' key', AuthServer.shiftKey slot (some place) = some place' ∧
      (server.manager.keys.eraseIdx slot)[place']? = some key' ∧ _
    rw [AuthServer.shiftKey, if_neg hne]
    by_cases hlt : place > slot
    · rw [if_pos hlt]
      refine ⟨place - 1, key, rfl, ?_, hrest⟩
      rw [List.getElem?_eraseIdx_of_ge (by omega), Nat.sub_add_cancel (by omega)]
      exact hget
    · rw [if_neg hlt]
      refine ⟨place, key, rfl, ?_, hrest⟩
      rw [List.getElem?_eraseIdx_of_lt (by omega)]
      exact hget

section Run

variable [DecidableEq Digest] (hashPassword : List UInt8 → List UInt8 → Digest)

/-- With a name, a client logs in with the level of its key. -/
lemma findLogin_name {manager : CAuthManager Digest} {name pw : List UInt8} {slot : ℕ} {level : AuthLevel}
    (hname : name ≠ []) (h : AuthServer.findLogin hashPassword manager name pw = some (slot, level)) :
    ∃ key, manager.keys[slot]? = some key ∧ key.level = level := by
  rw [AuthServer.findLogin, if_neg hname] at h
  split_ifs at h
  obtain ⟨place, -, hmap⟩ := Option.bind_eq_some_iff.1 h
  obtain ⟨key, hkey, heq⟩ := Option.map_eq_some_iff.1 hmap
  rw [Prod.mk.injEq] at heq
  obtain ⟨rfl, rfl⟩ := heq
  exact ⟨key, hkey, rfl⟩

/-- Without a name, a client logs in with a default key, which is there. -/
lemma findLogin_default {manager : CAuthManager Digest} {pw : List UInt8} {slot : ℕ} {level : AuthLevel}
    (h : AuthServer.findLogin hashPassword manager [] pw = some (slot, level)) :
    ∃ key, manager.keys[slot]? = some key := by
  have hcheck : ∀ level', manager.checkKey hashPassword (manager.default level') pw = true →
      (manager.default level').map (·, level') = some (slot, level) → ∃ key, manager.keys[slot]? = some key := by
    intro level' hcheck hmap
    obtain ⟨place, hplace, heq⟩ := Option.map_eq_some_iff.1 hmap
    rw [Prod.mk.injEq] at heq
    obtain ⟨rfl, rfl⟩ := heq
    rw [CAuthManager.checkKey, hplace, Option.bind_some] at hcheck
    cases hkey : manager.keys[place]? with
    | none =>
      rw [hkey] at hcheck
      exact Bool.noConfusion hcheck
    | some key => exact ⟨key, rfl⟩
  rw [AuthServer.findLogin, if_pos rfl] at h
  split_ifs at h with hadmin hmod hhelper
  · exact hcheck _ hadmin h
  · exact hcheck _ hmod h
  · exact hcheck _ hhelper h

/-- A client that gives no name and does not have the level yet logs in with a default key that still
has the level that it was made for. -/
def AuthOpOk (server : AuthServer Digest) : AuthOp Digest → Prop
  | .rconAuth c name pw => name = [] ∨ (server.clients c).sixup = true → ∀ slot level key,
      AuthServer.findLogin hashPassword server.manager [] pw = some (slot, level) →
        server.manager.keys[slot]? = some key → (server.clients c).authed ≠ level.authed → key.level = level
  | _ => True

/-- Every login is such, in the state in which it takes place. -/
def AuthRunOk : List (AuthOp Digest) → AuthServer Digest → Prop
  | [], _ => True
  | op :: ops, server => AuthOpOk hashPassword server op ∧ AuthRunOk ops (server.step hashPassword op)

lemma rconAuth_consistent {server : AuthServer Digest} (h : Consistent server) {c : ClientId}
    {name pw : List UInt8} (hok : AuthOpOk hashPassword server (.rconAuth c name pw)) :
    Consistent (server.rconAuth hashPassword c name pw) := by
  refine h.modify c ?_
  dsimp only
  set name' := if (server.clients c).sixup = true then [] else name with hname'
  cases hlogin : AuthServer.findLogin hashPassword server.manager name' pw with
  | none => exact h.clients c
  | some found =>
    obtain ⟨slot, level⟩ := found
    show KeyOk _ (AuthServer.loginClient _ _ slot level)
    rw [AuthServer.loginClient]
    by_cases hne : (server.clients c).authed ≠ level.authed
    · rw [if_pos hne]
      have hkey : ∃ key, server.manager.keys[slot]? = some key ∧ key.level = level := by
        by_cases hempty : name' = []
        · rw [hempty] at hlogin
          have hgiven : name = [] ∨ (server.clients c).sixup = true := by
            by_cases hsixup : (server.clients c).sixup = true
            · exact .inr hsixup
            · rw [hname', if_neg hsixup] at hempty
              exact .inl hempty
          obtain ⟨key, hkey⟩ := findLogin_default hashPassword hlogin
          exact ⟨key, hkey, hok hgiven slot level key hlogin hkey hne⟩
        · exact findLogin_name hashPassword hempty hlogin
      obtain ⟨key, hkey, rfl⟩ := hkey
      exact fun _ => ⟨slot, key, rfl, hkey, by rw [hkey]; rfl, rfl⟩
    · rw [if_neg hne]
      exact h.clients c

omit [DecidableEq Digest] in
lemma rconPassword_consistent {server : AuthServer Digest} (h : Consistent server) (level : AuthLevel)
    (current new salt : List UInt8) :
    Consistent (server.rconPasswordChange hashPassword level current new salt) := by
  rw [AuthServer.rconPasswordChange]
  by_cases hsame : strComp current new = .eq
  · rw [if_pos hsame]
    exact h
  · rw [if_neg hsame]
    cases server.manager.default level with
    | none =>
      dsimp only
      split_ifs
      · exact h.grow (grows_addDefaultKey hashPassword _ _ _ _)
      · exact h
    | some slot =>
      dsimp only
      split_ifs
      · exact h.removeKey slot
      · exact h.updateKeyHash slot _ _ _

omit [DecidableEq Digest] in
lemma setTimedOut_consistent {server : AuthServer Digest} (h : Consistent server) (c orig : ClientId) :
    Consistent (server.setTimedOut c orig) := by
  have hsixup : Consistent (server.modify c fun client => { client with sixup := (server.clients orig).sixup }) :=
    h.modify c (h.clients c)
  rw [AuthServer.setTimedOut]
  split_ifs
  · exact ((hsixup.modify c (keyOk_no rfl)).modify orig (keyOk_no rfl)).modify c (keyOk_no rfl)
  · exact (hsixup.modify orig (keyOk_no rfl)).modify c (keyOk_no rfl)

lemma step_consistent {server : AuthServer Digest} (h : Consistent server) {op : AuthOp Digest}
    (hok : AuthOpOk hashPassword server op) : Consistent (server.step hashPassword op) := by
  cases op with
  | init svRconPassword svRconModPassword svRconHelperPassword random salt =>
    refine h.grow ?_
    rw [CAuthManager.init]
    split_ifs
    · exact grows_addDefaultKey hashPassword _ _ _ _
    · exact .inl ⟨rfl, rfl⟩
  | authAdd ident level pw salt => exact h.grow (grows_addKeyHash _ _ _ _ _)
  | authAddHashed ident level hash salt => exact h.grow (grows_addKeyHash _ _ _ _ _)
  | authUpdate ident level pw salt =>
    rw [AuthServer.step]
    cases server.manager.findKey ident with
    | none => exact h
    | some slot => exact h.updateKeyHash slot _ _ _
  | authUpdateHashed ident level hash salt =>
    rw [AuthServer.step]
    cases server.manager.findKey ident with
    | none => exact h
    | some slot => exact h.updateKeyHash slot _ _ _
  | authRemove ident =>
    rw [AuthServer.step]
    cases server.manager.findKey ident with
    | none => exact h
    | some slot => exact h.removeKey slot
  | rconPassword level current new salt => exact rconPassword_consistent hashPassword h level current new salt
  | rconAuth c name pw => exact rconAuth_consistent hashPassword h hok
  | logout c => exact h.modify c (keyOk_no rfl)
  | join c sixup =>
    show Consistent (server.modify c fun client => { client.logout with sixup := sixup })
    exact h.modify c (keyOk_no rfl)
  | rejoin c => exact h.modify c (keyOk_no rfl)
  | drop c =>
    show Consistent (server.modify c fun client => { client.logout with sixup := false })
    exact h.modify c (keyOk_no rfl)
  | setTimedOut c orig => exact setTimedOut_consistent h c orig

lemma run_consistent (ops : List (AuthOp Digest)) {server : AuthServer Digest} (h : Consistent server)
    (hok : AuthRunOk hashPassword ops server) : Consistent (AuthServer.run hashPassword ops server) := by
  induction ops generalizing server with
  | nil => exact h
  | cons op ops ih => exact ih (step_consistent hashPassword h hok.1) hok.2

omit [DecidableEq Digest] in
lemma init_consistent : Consistent (AuthServer.init : AuthServer Digest) :=
  ⟨fun _ => keyOk_no rfl, List.nodup_nil, fun _ hkey => absurd hkey List.not_mem_nil⟩

/-- The place of the key that an operation removes, or whose password and level it changes. -/
def changedKey (server : AuthServer Digest) : AuthOp Digest → Option ℕ
  | .authUpdate ident _ _ _ => server.manager.findKey ident
  | .authUpdateHashed ident _ _ _ => server.manager.findKey ident
  | .authRemove ident => server.manager.findKey ident
  | .rconPassword level current new _ =>
      if strComp current new = .eq then none else server.manager.default level
  | _ => none

omit [DecidableEq Digest] in
lemma logoutKey_authed (server : AuthServer Digest) {slot : ℕ} {c : ClientId}
    (hkey : (server.clients c).authKey = some slot) : ((server.logoutKey slot).clients c).authed = .no := by
  simp only [AuthServer.logoutKey]
  rw [if_pos hkey]
  rfl

/-- Who has the key is logged out. -/
lemma changedKey_logout {server : AuthServer Digest} {op : AuthOp Digest} {slot : ℕ} {c : ClientId}
    (hop : changedKey server op = some slot) (hkey : (server.clients c).authKey = some slot) :
    ((server.step hashPassword op).clients c).authed = .no := by
  cases op with
  | authUpdate ident level pw salt =>
    rw [changedKey] at hop
    rw [AuthServer.step, hop]
    exact logoutKey_authed _ hkey
  | authUpdateHashed ident level hash salt =>
    rw [changedKey] at hop
    rw [AuthServer.step, hop]
    exact logoutKey_authed _ hkey
  | authRemove ident =>
    rw [changedKey] at hop
    rw [AuthServer.step, hop]
    exact logoutKey_authed { server with manager := server.manager.removeKey slot } hkey
  | rconPassword level current new salt =>
    rw [changedKey] at hop
    rw [AuthServer.step, AuthServer.rconPasswordChange]
    split_ifs at hop with hsame
    rw [if_neg hsame, hop]
    dsimp only
    split_ifs
    · exact logoutKey_authed { server with manager := server.manager.removeKey slot } hkey
    · exact logoutKey_authed _ hkey
  | _ => exact absurd hop (Option.some_ne_none slot).symm

/-- In every run whose logins without a name find their default keys unchanged, the clients that are
logged in have the level of the key that they logged in with; and when a key changes, everyone who has
it is logged out. -/
theorem auth_consistent (ops : List (AuthOp Digest)) (hok : AuthRunOk hashPassword ops AuthServer.init) :
    Consistent (AuthServer.run hashPassword ops AuthServer.init) ∧
      ∀ op slot c, changedKey (AuthServer.run hashPassword ops AuthServer.init) op = some slot →
        ((AuthServer.run hashPassword ops AuthServer.init).clients c).authKey = some slot →
          (((AuthServer.run hashPassword ops AuthServer.init).step hashPassword op).clients c).authed = .no :=
  ⟨run_consistent hashPassword ops init_consistent hok, fun _ _ _ hop hkey =>
    changedKey_logout hashPassword hop hkey⟩

end Run

/-- A function in the place of the hash of a password. -/
def saltedPassword (pw salt : List UInt8) : List UInt8 := salt ++ pw

/-- A client logs in as admin and is logged out when the password is changed. -/
theorem admin_logged_in :
    let server := AuthServer.run saltedPassword
      [.rconPassword .admin [] [112] [7], .join 0 false, .rconAuth 0 [] [112]] AuthServer.init
    (server.clients 0).authed = .admin ∧ Consistent server ∧
      ((server.step saltedPassword (.rconPassword .admin [112] [113] [8])).clients 0).authed = .no := by
  intro server
  have hok : AuthRunOk saltedPassword
      [.rconPassword .admin [] [112] [7], .join 0 false, .rconAuth 0 [] [112]] AuthServer.init := by
    refine ⟨trivial, trivial, fun _ slot level key hlogin hkey _ => ?_, trivial⟩
    obtain ⟨rfl, rfl⟩ : 0 = slot ∧ AuthLevel.admin = level := by
      have hfound : some (0, AuthLevel.admin) = some (slot, level) := hlogin
      simpa using hfound
    exact (congrArg CKey.level (Option.some_injective _ hkey)).symm
  obtain ⟨hconsistent, hlogout⟩ := auth_consistent saltedPassword _ hok
  exact ⟨rfl, hconsistent, hlogout _ 0 0 rfl rfl⟩

/-- A client logs in as admin with the default key of the admins after it has been made a key for
helpers. -/
theorem login_changed_default : ¬∀ ops : List (AuthOp (List UInt8)),
    Consistent (AuthServer.run saltedPassword ops AuthServer.init) := by
  intro h
  have hclient := (h [.rconPassword .admin [] [112] [7],
    .authUpdate (CAuthManager.defaultIdent .admin) .helper [113] [8], .join 0 false,
    .rconAuth 0 [] [113]]).clients 0
  obtain ⟨slot, key, hslot, hkey, -, hlevel⟩ := hclient (by decide)
  obtain rfl : 0 = slot := Option.some_injective _ hslot
  rw [← congrArg CKey.level (Option.some_injective _ hkey)] at hlevel
  revert hlevel
  decide

end CServer

end DDNet
