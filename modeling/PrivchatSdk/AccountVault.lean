import Mathlib.Data.List.AList
import Mathlib.Data.String.Basic
import PrivchatSdk.Lib.Exec
import PrivchatSdk.Lib.Run
import PrivchatSdk.MessageContent
import PrivchatSdk.OutboundFile
import PrivchatSdk.Store.Rows

/-!
# The account vault

Each account has a key-value store with its access token, encrypted under a master key
that is itself wrapped under a key of the installation; a global store lists the
accounts; and a row of the account's SQLite database may still hold a session of an
older version.  The calls write these stores key by key, and any write can fail.

A connection to the SQLite database is kept for the next call.  Removing the files of an
account leaves such a connection open: it goes on with the file that has no name any
more (`DbConn.unlinked`).

The two ciphers and the random source are parameters.
-/

namespace PrivchatSdk
namespace Accounts

open StatementExec

section State

/-- A value in a key-value store. -/
inductive KvValue where
  | bytes (value : Bytes)
  | text (value : String)
  | i32 (value : Int)
  | i64 (value : Int)
  deriving DecidableEq

/-- The keys of the trees `meta`, `profile`, `wrap` and `auth` of `account.kv`. -/
inductive AccountKey where
  | schemaVersion | wrapVersion | wrapAlg | lastLoginAt | bootstrapCompleted
  | userWrapEnabled | userWrapVersion
  | uid | profileUpdatedAt
  | masterKeyWrapped | masterKeyNonce
  | accessTokenAlg | accessTokenEnc | accessTokenNonce | deviceIdCurrent | tokenExpireAt
  deriving DecidableEq

/-- The keys of the tree `install`. -/
inductive InstallKey where
  | schemaVersion | deviceId | installSecret | createdAt
  deriving DecidableEq

structure SessionSnapshot where
  userId : Nat
  token : String
  deviceId : String
  bootstrapCompleted : Bool
  deriving DecidableEq

/-- The SQLite database of an account: the row of `auth_session`, and its tables. -/
structure UserDb where
  authSession : Option SessionSnapshot
  tables : Store

/-- What `init_user_db` makes where no file is. -/
def UserDb.fresh : UserDb where
  authSession := none
  tables := Store.empty

/-- The connection that is kept for an account. -/
inductive DbConn where
  | closed
  /-- To the file under the name of the database. -/
  | attached
  /-- To a file that was removed while the connection was open. -/
  | unlinked (db : UserDb)

/-- The databases of all accounts; a file that does not exist reads as a fresh one. -/
structure UserDbs where
  file : String → UserDb
  conn : String → DbConn

structure Vault where
  install : InstallKey → Option KvValue
  accounts : AList (fun _ : String => KvValue)
  accountKv : String → AccountKey → Option KvValue
  dbs : UserDbs
  currentUser : Option String

/-- A new data directory, in which older versions may have left databases. -/
def Vault.start (file : String → UserDb) : Vault where
  install := fun _ => none
  accounts := ∅
  accountKv := fun _ _ => none
  dbs := { file := file, conn := fun _ => .closed }
  currentUser := none

/--
The clock, the random bytes and the failing statements of one call.  A statement fails by
its context, so of two with one context in a call both fail or none; and a directory is
removed whole or not at all.
-/
structure VaultEnv where
  now : Int
  fault : String → Bool
  masterKey : Vector UInt8 32
  wrapNonce : Vector UInt8 12
  tokenNonce : Vector UInt8 12
  deviceId : String
  installSecret : Vector UInt8 32

/-- The key derivation, and the cipher with its nonce and associated data. -/
structure VaultCrypto where
  hkdf (salt secret info : Bytes) : Bytes
  encrypt (key nonce plain aad : Bytes) : Option Bytes
  decrypt (key nonce ciphertext aad : Bytes) : Option Bytes

/-- The cipher encrypts, and reads back what it encrypted. -/
structure VaultCrypto.Correct (crypto : VaultCrypto) : Prop where
  seals : ∀ key nonce plain aad, (crypto.encrypt key nonce plain aad).isSome = true
  opens : ∀ key nonce plain aad ciphertext,
    crypto.encrypt key nonce plain aad = some ciphertext →
      crypto.decrypt key nonce ciphertext aad = some plain

abbrev VaultM (α : Type) : Type :=
  Exec VaultEnv Vault StoreError α

end State

section Statements

variable {α : Type}

/-- One statement; if it fails nothing changes. -/
def stmt (context : String) (f : Vault → α × Vault) : VaultM α :=
  fun env v =>
    if env.fault context then
      (.error (.storage context none), v)
    else
      (.ok (f v).1, (f v).2)

def env : VaultM VaultEnv :=
  fun e v => (.ok e, v)

def ofExcept (x : Except StoreError α) : VaultM α :=
  fun _ v => (x, v)

def Vault.withKv (v : Vault) (uid : String) (kv : AccountKey → Option KvValue) : Vault :=
  { v with accountKv := Function.update v.accountKv uid kv }

def Vault.setKey (v : Vault) (uid : String) (key : AccountKey) (value : Option KvValue) :
    Vault :=
  v.withKv uid (Function.update (v.accountKv uid) key value)

@[simp] theorem Vault.withKv_accountKv (v : Vault) (uid : String)
    (kv : AccountKey → Option KvValue) : (v.withKv uid kv).accountKv uid = kv := by
  exact Function.update_self uid kv v.accountKv

theorem Vault.withKv_accountKv_of_ne (v : Vault) {uid u : String} (h : u ≠ uid)
    (kv : AccountKey → Option KvValue) : (v.withKv uid kv).accountKv u = v.accountKv u := by
  exact Function.update_of_ne h kv v.accountKv

@[simp] theorem Vault.withKv_withKv (v : Vault) (uid : String)
    (kv kv' : AccountKey → Option KvValue) :
    (v.withKv uid kv).withKv uid kv' = v.withKv uid kv' := by
  simp only [Vault.withKv, Function.update_idem]

theorem Vault.withKv_self (v : Vault) (uid : String) :
    v.withKv uid (v.accountKv uid) = v := by
  simp only [Vault.withKv, Function.update_eq_self]

def readKey (context uid : String) (key : AccountKey) : VaultM (Option KvValue) :=
  stmt context (fun v => (v.accountKv uid key, v))

def insertKey (context uid : String) (key : AccountKey) (value : KvValue) : VaultM PUnit :=
  stmt context (fun v => (.unit, v.setKey uid key (some value)))

def removeKey (context uid : String) (key : AccountKey) : VaultM PUnit :=
  stmt context (fun v => (.unit, v.setKey uid key none))

def insertInstall (context : String) (key : InstallKey) (value : KvValue) : VaultM PUnit :=
  stmt context
    (fun v => (.unit, { v with install := Function.update v.install key (some value) }))

def insertAccount (context key : String) (value : KvValue) : VaultM PUnit :=
  stmt context (fun v => (.unit, { v with accounts := v.accounts.insert key value }))

def removeAccount (context key : String) : VaultM PUnit :=
  stmt context (fun v => (.unit, { v with accounts := v.accounts.erase key }))

/-- Open a store or a tree, or flush one. -/
def touch (context : String) : VaultM PUnit :=
  stmt context (fun v => (.unit, v))

def badValue (context : String) : StoreError :=
  .storage context none

/-- `get_string`. -/
def getString (context : String) : Option KvValue → Except StoreError (Option String)
  | none => .ok none
  | some (.text value) => .ok (some value)
  | some _ => .error (badValue context)

/-- `i32_from_be_slice`. -/
def i32FromBeSlice : KvValue → Except StoreError Int
  | .i32 value => .ok value
  | _ => .error (badValue "invalid i32 bytes length")

/-- The database that a call for the account sees. -/
def UserDbs.seen (d : UserDbs) (uid : String) : UserDb :=
  match d.conn uid with
  | .unlinked db => db
  | _ => d.file uid

/-- `conn_for_user`, and the connection goes back to the cache. -/
def UserDbs.connect (d : UserDbs) (uid : String) : UserDbs :=
  match d.conn uid with
  | .closed => { d with conn := Function.update d.conn uid .attached }
  | _ => d

/-- Write through the connection. -/
def UserDbs.write (d : UserDbs) (uid : String) (db : UserDb) : UserDbs :=
  match d.conn uid with
  | .unlinked _ => { d with conn := Function.update d.conn uid (.unlinked db) }
  | _ => { d with file := Function.update d.file uid db }

/-- The file of an account is removed; an open connection keeps it. -/
def UserDbs.remove (d : UserDbs) (uid : String) : UserDbs where
  file := Function.update d.file uid UserDb.fresh
  conn := match d.conn uid with
    | .attached => Function.update d.conn uid (.unlinked (d.file uid))
    | _ => d.conn

/-- The process ends, and with it the connections. -/
def UserDbs.restart (d : UserDbs) : UserDbs :=
  { d with conn := fun _ => .closed }

/--
A statement on the database of an account.  The move of an older version's queues, which
opening the storage runs before it, is a call of its own (`VaultOp.tables`): nothing here
reads what it writes.
-/
def withConn (context uid : String) (f : UserDb → α × UserDb) : VaultM α := do
  let _ ← stmt "open db" (fun v => (PUnit.unit, { v with dbs := v.dbs.connect uid }))
  stmt context (fun v =>
    ((f (v.dbs.seen uid)).1, { v with dbs := v.dbs.write uid (f (v.dbs.seen uid)).2 }))

end Statements

section UserDbs

variable (d : UserDbs) (uid : String)

@[simp] theorem UserDbs.seen_connect (u : String) : (d.connect uid).seen u = d.seen u := by
  unfold UserDbs.connect
  cases hconn : d.conn uid with
  | attached => rfl
  | unlinked db => rfl
  | closed =>
      unfold UserDbs.seen
      by_cases hu : u = uid
      · subst hu
        simp [hconn]
      · simp [Function.update_of_ne hu]

@[simp] theorem UserDbs.seen_write_self (db : UserDb) : (d.write uid db).seen uid = db := by
  unfold UserDbs.write UserDbs.seen
  cases hconn : d.conn uid with
  | attached => simp [hconn]
  | unlinked old => simp
  | closed => simp [hconn]

/-- What a call sees behind a removal depends on whether a connection was kept. -/
theorem UserDbs.seen_remove_self :
    (d.remove uid).seen uid = match d.conn uid with
      | .closed => UserDb.fresh
      | _ => d.seen uid := by
  unfold UserDbs.remove UserDbs.seen
  cases hconn : d.conn uid with
  | attached => simp
  | unlinked old => simp [hconn]
  | closed => simp [hconn]

/-- Writing back what is there changes nothing. -/
theorem UserDbs.write_seen : d.write uid (d.seen uid) = d := by
  unfold UserDbs.write UserDbs.seen
  cases hconn : d.conn uid with
  | attached => simp
  | unlinked db =>
      simp only
      rw [← hconn, Function.update_eq_self]
  | closed => simp

end UserDbs

section Runs

variable {α : Type} {e : VaultEnv}

/-- No statement of the call fails. -/
def VaultEnv.Calm (e : VaultEnv) : Prop :=
  ∀ context, e.fault context = false

theorem stmt_calm (h : e.Calm) (context : String) (f : Vault → α × Vault) (v : Vault) :
    stmt context f e v = (.ok (f v).1, (f v).2) := by
  unfold stmt
  rw [h context, if_neg Bool.false_ne_true]

theorem env_run (v : Vault) : env e v = (.ok e, v) := by
  rfl

theorem ofExcept_run (x : Except StoreError α) (v : Vault) : ofExcept x e v = (x, v) := by
  rfl

theorem touch_calm (h : e.Calm) (context : String) (v : Vault) :
    touch context e v = (.ok .unit, v) :=
  stmt_calm h ..

theorem readKey_calm (h : e.Calm) (context uid : String) (key : AccountKey) (v : Vault) :
    readKey context uid key e v = (.ok (v.accountKv uid key), v) :=
  stmt_calm h ..

theorem insertKey_calm (h : e.Calm) (context uid : String) (key : AccountKey)
    (value : KvValue) (v : Vault) :
    insertKey context uid key value e v = (.ok .unit, v.setKey uid key (some value)) :=
  stmt_calm h ..

theorem removeKey_calm (h : e.Calm) (context uid : String) (key : AccountKey) (v : Vault) :
    removeKey context uid key e v = (.ok .unit, v.setKey uid key none) :=
  stmt_calm h ..

theorem insertInstall_calm (h : e.Calm) (context : String) (key : InstallKey)
    (value : KvValue) (v : Vault) :
    insertInstall context key value e v =
      (.ok .unit, { v with install := Function.update v.install key (some value) }) :=
  stmt_calm h ..

theorem insertAccount_calm (h : e.Calm) (context key : String) (value : KvValue)
    (v : Vault) :
    insertAccount context key value e v =
      (.ok .unit, { v with accounts := v.accounts.insert key value }) :=
  stmt_calm h ..

theorem removeAccount_calm (h : e.Calm) (context key : String) (v : Vault) :
    removeAccount context key e v =
      (.ok .unit, { v with accounts := v.accounts.erase key }) :=
  stmt_calm h ..

theorem withConn_calm (h : e.Calm) (context uid : String) (f : UserDb → α × UserDb)
    (v : Vault) :
    withConn context uid f e v =
      (.ok (f (v.dbs.seen uid)).1,
        { v with
          dbs := (v.dbs.connect uid).write uid (f (v.dbs.seen uid)).2 }) := by
  unfold withConn
  simp only [Exec.bind_run, stmt_calm h, UserDbs.seen_connect]

end Runs

section Keys

variable (crypto : VaultCrypto)

structure InstallState where
  deviceId : String
  installSecret : Bytes

/-- `get_install_state`. -/
def getInstallState : VaultM InstallState := do
  let _ ← touch "open install tree"
  let deviceId ← stmt "read key device_id" (fun v => (v.install .deviceId, v))
  let deviceId ← ofExcept (getString "key device_id is not valid utf8" deviceId)
  let secret ← stmt "read install secret" (fun v => (v.install .installSecret, v))
  match deviceId, secret with
  | some deviceId, some (.bytes secret) =>
      if secret.length = 32 then
        pure { deviceId := deviceId, installSecret := secret }
      else
        Exec.fail (badValue "invalid install secret length, expect 32 bytes")
  | some _, some _ =>
      Exec.fail (badValue "invalid install secret length, expect 32 bytes")
  | _, _ => do
      let e ← env
      let _ ← insertInstall "save install schema" .schemaVersion (.i32 1)
      let _ ← insertInstall "save install device_id" .deviceId (.text e.deviceId)
      let _ ← insertInstall "save install secret" .installSecret
        (.bytes e.installSecret.toList)
      let _ ← insertInstall "save install created_at" .createdAt (.i64 e.now)
      pure { deviceId := e.deviceId, installSecret := e.installSecret.toList }

def utf8 (text : String) : Bytes :=
  text.toUTF8.data.toList

def fromUtf8 (bytes : Bytes) : Option String :=
  String.fromUTF8? ⟨bytes.toArray⟩

def wrapAad (uid : String) : Bytes :=
  utf8 ("privchat|purpose=wrap_master_key|uid=" ++ uid ++ "|wrap_version=1|schema=1")

def tokenAad (uid purpose : String) : Bytes :=
  utf8 ("privchat|purpose=" ++ purpose ++ "|uid=" ++ uid ++ "|schema=1")

/-- `derive_wrap_key`: 32 bytes from the installation's secret, salted by the device. -/
def VaultCrypto.deriveWrapKey (crypto : VaultCrypto) (deviceId : String)
    (installSecret : Bytes) (uid : String) : Bytes :=
  crypto.hkdf (utf8 deviceId) installSecret
    (utf8 ("privchat.wrap.master_key|v=1|uid=" ++ uid))

/-- `unwrap_master_key`. -/
def unwrapMasterKey (uid : String) (install : InstallState) (wrapped nonce : Bytes) :
    Except StoreError Bytes :=
  if nonce.length ≠ 12 then
    .error (badValue "invalid wrapped master key nonce length, expect 12 bytes")
  else
    match crypto.decrypt (crypto.deriveWrapKey install.deviceId install.installSecret uid)
        nonce wrapped (wrapAad uid) with
    | none => .error (badValue "unwrap master key")
    | some plain =>
        if plain.length = 32 then
          .ok plain
        else
          .error (badValue "invalid master key length after unwrap, expect 32 bytes")

/-- `get_or_create_master_key`. -/
def getOrCreateMasterKey (uid : String) (install : InstallState) : VaultM Bytes := do
  let wrapped ← readKey "load wrapped master key" uid .masterKeyWrapped
  let nonce ← readKey "load wrapped master key nonce" uid .masterKeyNonce
  match wrapped, nonce with
  | some (.bytes wrapped), some (.bytes nonce) =>
      ofExcept (unwrapMasterKey crypto uid install wrapped nonce)
  | _, _ => do
      let e ← env
      match crypto.encrypt
          (crypto.deriveWrapKey install.deviceId install.installSecret uid)
          e.wrapNonce.toList e.masterKey.toList (wrapAad uid) with
      | none => Exec.fail (badValue "wrap master key")
      | some wrapped => do
          let _ ← insertKey "save wrapped master key" uid .masterKeyWrapped (.bytes wrapped)
          let _ ← insertKey "save wrapped master key nonce" uid .masterKeyNonce
            (.bytes e.wrapNonce.toList)
          pure e.masterKey.toList

/-- `load_master_key`. -/
def loadMasterKey (uid : String) : VaultM Bytes := do
  let install ← getInstallState
  let wrapped ← readKey "load wrapped master key" uid .masterKeyWrapped
  let nonce ← readKey "load wrapped master key nonce" uid .masterKeyNonce
  match wrapped, nonce with
  | some (.bytes wrapped), some (.bytes nonce) =>
      ofExcept (unwrapMasterKey crypto uid install wrapped nonce)
  | some _, none => Exec.fail (badValue "master key nonce not initialized")
  | _, _ => Exec.fail (badValue "master key not initialized")

/-- `encrypt_user_blob`: the ciphertext and its nonce. -/
def encryptUserBlob (uid purpose : String) (masterKey plain : Bytes) :
    VaultM (Bytes × Bytes) := do
  let e ← env
  match crypto.encrypt masterKey e.tokenNonce.toList plain (tokenAad uid purpose) with
  | none => Exec.fail (badValue ("encrypt " ++ purpose))
  | some ciphertext => pure (ciphertext, e.tokenNonce.toList)

/-- `decrypt_user_blob`. -/
def decryptUserBlob (uid purpose : String) (masterKey ciphertext nonce : Bytes) :
    Except StoreError Bytes :=
  if nonce.length ≠ 12 then
    .error (badValue ("invalid nonce length for " ++ purpose ++ ", expect 12 bytes"))
  else
    match crypto.decrypt masterKey nonce ciphertext (tokenAad uid purpose) with
    | none => .error (badValue ("decrypt " ++ purpose))
    | some plain => .ok plain

end Keys

section Calls

variable (crypto : VaultCrypto)

structure LoginResult where
  token : String
  deviceId : String
  expiresAt : Nat

def kAcctLastLogin (uid : String) : String :=
  "acct/" ++ uid ++ "/last_login_at"

def kAcctCreatedAt (uid : String) : String :=
  "acct/" ++ uid ++ "/created_at"

def kAcctDisplayName (uid : String) : String :=
  "acct/" ++ uid ++ "/display_name"

def kAcctUsername (uid : String) : String :=
  "acct/" ++ uid ++ "/username"

def kAcctLoginMode (uid : String) : String :=
  "acct/" ++ uid ++ "/login_mode"

def kAcctLoginIdentifier (uid : String) : String :=
  "acct/" ++ uid ++ "/login_identifier"

def kActiveUid : String :=
  "active_uid"

/-- `i64::try_from(v).unwrap_or(i64::MAX)`. -/
def clampI64 (v : Nat) : Int :=
  if v < 2 ^ 63 then v else 2 ^ 63 - 1

def boolI32 (b : Bool) : KvValue :=
  .i32 (if b then 1 else 0)

/-- `save_current_uid`. -/
def saveCurrentUid (uid : String) : VaultM PUnit :=
  stmt "write current uid" (fun v => (.unit, { v with currentUser := some uid }))

/-- `load_current_uid`. -/
def loadCurrentUid : VaultM (Option String) := do
  let raw ← stmt "read current uid" (fun v => (v.currentUser, v))
  pure ((raw.map trim).filter (fun uid => uid != ""))

/-- `clear_current_uid`. -/
def clearCurrentUid : VaultM PUnit :=
  stmt "clear current uid" (fun v => (.unit, { v with currentUser := none }))

/-- `load_legacy_session`. -/
def loadLegacySession (uid : String) : VaultM (Option SessionSnapshot) :=
  withConn "load legacy session" uid (fun db => (db.authSession, db))

/-- `clear_legacy_session`. -/
def clearLegacySession (uid : String) : VaultM PUnit :=
  withConn "clear legacy session" uid (fun db => (.unit, { db with authSession := none }))

/-- `load_bootstrap_completed`. -/
def loadBootstrapCompleted (uid : String) : VaultM Bool := do
  let _ ← touch "open account tree meta"
  let value ← readKey "load bootstrap completed" uid .bootstrapCompleted
  match value with
  | some v => do
      let flag ← ofExcept (i32FromBeSlice v)
      pure (flag != 0)
  | none => do
      let legacy ← loadLegacySession uid
      pure ((legacy.map SessionSnapshot.bootstrapCompleted).getD false)

/-- What `save_login` writes to the account's own store. -/
def saveAccountKv (uid : String) (login : LoginResult) (bootstrapCompleted : Bool)
    (blob : Bytes × Bytes) : VaultM PUnit := do
  let e ← env
  let _ ← touch "open meta tree"
  let _ ← touch "open profile tree"
  let _ ← touch "open auth tree"
  let _ ← insertKey "save schema version" uid .schemaVersion (.i32 1)
  let _ ← insertKey "save wrap version" uid .wrapVersion (.i32 1)
  let _ ← insertKey "save wrap alg" uid .wrapAlg (.text "HKDF-SHA256+AES-256-GCM")
  let _ ← insertKey "save last_login_at" uid .lastLoginAt (.i64 e.now)
  let _ ← insertKey "save bootstrap completed" uid .bootstrapCompleted
    (boolI32 bootstrapCompleted)
  let _ ← insertKey "save user_wrap_enabled" uid .userWrapEnabled (.i32 0)
  let _ ← insertKey "save user_wrap_version" uid .userWrapVersion (.i32 0)
  let _ ← insertKey "save profile uid" uid .uid (.text uid)
  let _ ← insertKey "save profile_updated_at" uid .profileUpdatedAt (.i64 e.now)
  let _ ← insertKey "save access token alg" uid .accessTokenAlg (.text "AES-256-GCM")
  let _ ← insertKey "save access token enc" uid .accessTokenEnc (.bytes blob.1)
  let _ ← insertKey "save access token nonce" uid .accessTokenNonce (.bytes blob.2)
  let _ ← insertKey "save device_id" uid .deviceIdCurrent (.text login.deviceId)
  insertKey "save token expire_at" uid .tokenExpireAt (.i64 (clampI64 login.expiresAt))

/-- What `save_login` writes to the global store. -/
def saveAccountEntry (uid : String) : VaultM PUnit := do
  let e ← env
  let _ ← touch "open accounts tree"
  let _ ← insertAccount "save accounts schema" "schema_version" (.i32 1)
  let _ ← insertAccount "save active uid" kActiveUid (.text uid)
  let created ← stmt "load account created_at"
    (fun v => (v.accounts.lookup (kAcctCreatedAt uid), v))
  let _ ← (if created.isNone then
      insertAccount "save account created_at" (kAcctCreatedAt uid) (.i64 e.now)
    else
      pure .unit)
  insertAccount "save account last_login_at" (kAcctLastLogin uid) (.i64 e.now)

/-- `save_login`. -/
def saveLogin (uid : String) (login : LoginResult) : VaultM PUnit := do
  let bootstrapCompleted ← loadBootstrapCompleted uid
  let install ← getInstallState
  let masterKey ← getOrCreateMasterKey crypto uid install
  let blob ← encryptUserBlob crypto uid "access_token" masterKey (utf8 login.token)
  let _ ← saveAccountKv uid login bootstrapCompleted blob
  let _ ← saveAccountEntry uid
  let _ ← clearLegacySession uid
  saveCurrentUid uid

/-- `set_bootstrap_completed`. -/
def setBootstrapCompleted (uid : String) (completed : Bool) : VaultM PUnit := do
  let _ ← touch "open account tree meta"
  let _ ← insertKey "set bootstrap completed" uid .bootstrapCompleted (boolI32 completed)
  touch "flush bootstrap completed"

/-- `load_access_token`. -/
def loadAccessToken (uid : String) : VaultM (Option String) := do
  let _ ← touch "open account tree auth"
  let enc ← readKey "load access token" uid .accessTokenEnc
  let nonce ← readKey "load access token nonce" uid .accessTokenNonce
  match enc, nonce with
  | some (.bytes enc), some (.bytes nonce) => do
      let masterKey ← loadMasterKey crypto uid
      let plain ← ofExcept (decryptUserBlob crypto uid "access_token" masterKey enc nonce)
      match fromUtf8 plain with
      | some token => pure (some token)
      | none => Exec.fail (badValue "decode access token utf8")
  | _, _ => pure none

/-- `load_session_from_account`. -/
def loadSessionFromAccount (uid : String) : VaultM (Option SessionSnapshot) := do
  let _ ← touch "open auth tree"
  let _ ← touch "open profile tree"
  let _ ← touch "open meta tree"
  let enc ← readKey "load access token" uid .accessTokenEnc
  let nonce ← readKey "load access token nonce" uid .accessTokenNonce
  let deviceId ← readKey "read key device_id" uid .deviceIdCurrent
  let deviceId ← ofExcept (getString "key device_id is not valid utf8" deviceId)
  let profileUid ← readKey "read key uid" uid .uid
  let profileUid ← ofExcept (getString "key uid is not valid utf8" profileUid)
  match enc, nonce, deviceId, profileUid with
  | some (.bytes enc), some (.bytes nonce), some deviceId, some profileUid => do
      let masterKey ← loadMasterKey crypto uid
      let plain ← ofExcept (decryptUserBlob crypto uid "access_token" masterKey enc nonce)
      match fromUtf8 plain with
      | none => Exec.fail (badValue "decode access token utf8")
      | some token =>
          match parseU64 profileUid with
          | none => Exec.fail (badValue "parse profile uid")
          | some userId => do
              let value ← readKey "load bootstrap completed" uid .bootstrapCompleted
              let flag ← ofExcept (match value with
                | none => .ok 0
                | some v => i32FromBeSlice v)
              pure (some {
                userId := userId
                token := token
                deviceId := deviceId
                bootstrapCompleted := flag != 0 })
  | _, _, _, _ => pure none

/-- `load_session`. -/
def loadSession (uid : String) : VaultM (Option SessionSnapshot) := do
  let snapshot ← loadSessionFromAccount crypto uid
  match snapshot with
  | some snapshot => pure (some snapshot)
  | none => do
      let legacy ← loadLegacySession uid
      match legacy with
      | none => pure none
      | some legacy => do
          let _ ← saveLogin crypto uid
            { token := legacy.token, deviceId := legacy.deviceId, expiresAt := 0 }
          let _ ← setBootstrapCompleted uid legacy.bootstrapCompleted
          pure (some legacy)

/-- In `clear_session` and `wipe_user_full`: the account is not the active one any more. -/
def clearActiveUid (context uid : String) (flush : VaultM PUnit) : VaultM PUnit := do
  let active ← stmt "read key active_uid" (fun v => (v.accounts.lookup kActiveUid, v))
  let active ← ofExcept (getString "key active_uid is not valid utf8" active)
  if active = some uid then do
    let _ ← removeAccount context kActiveUid
    flush
  else
    pure .unit

/-- `clear_session`. -/
def clearSession (uid : String) : VaultM PUnit := do
  let _ ← touch "open account tree auth"
  let _ ← removeKey "clear access token" uid .accessTokenEnc
  let _ ← removeKey "clear access token nonce" uid .accessTokenNonce
  let _ ← removeKey "clear device_id" uid .deviceIdCurrent
  let _ ← removeKey "clear token expire_at" uid .tokenExpireAt
  let _ ← touch "open accounts tree"
  let _ ← clearActiveUid "clear active uid" uid (touch "flush global db")
  clearLegacySession uid

/-- The batch of `update_access_token`: all of it is written or nothing. -/
def Vault.applyTokenBatch (v : Vault) (uid : String) (blob : Bytes × Bytes)
    (expiresAt : Option Nat) : Vault :=
  let v := v.setKey uid .accessTokenAlg (some (.text "AES-256-GCM"))
  let v := v.setKey uid .accessTokenEnc (some (.bytes blob.1))
  let v := v.setKey uid .accessTokenNonce (some (.bytes blob.2))
  match expiresAt with
  | some exp => v.setKey uid .tokenExpireAt (some (.i64 (clampI64 exp)))
  | none => v

/-- `update_access_token`. -/
def updateAccessToken (uid accessToken : String) (expiresAt : Option Nat) :
    VaultM PUnit := do
  let masterKey ← loadMasterKey crypto uid
  let blob ← encryptUserBlob crypto uid "access_token" masterKey (utf8 accessToken)
  let _ ← touch "open account tree auth"
  stmt "apply access token batch" (fun v => (.unit, v.applyTokenBatch uid blob expiresAt))

def saveAccountText (key : String) (value : Option String) : VaultM PUnit :=
  match (value.map trim).filter (fun v => v != "") with
  | some v => insertAccount "write account display name" key (.text v)
  | none => pure .unit

/-- `save_account_display_name`. -/
def saveAccountDisplayName (uid : String)
    (displayName username loginMode loginIdentifier : Option String) : VaultM PUnit := do
  let _ ← touch "open accounts tree"
  let _ ← saveAccountText (kAcctDisplayName uid) displayName
  let _ ← saveAccountText (kAcctUsername uid) username
  let _ ← saveAccountText (kAcctLoginMode uid) loginMode
  saveAccountText (kAcctLoginIdentifier uid) loginIdentifier

/-- The files of an account are removed. -/
def Vault.removeUserDir (v : Vault) (uid : String) : Vault :=
  { v.withKv uid (fun _ => none) with dbs := v.dbs.remove uid }

/-- `wipe_user_full`. -/
def wipeUserFull (uid : String) : VaultM PUnit := do
  let _ ← stmt "remove user dir" (fun v => (PUnit.unit, v.removeUserDir uid))
  let _ ← touch "open accounts tree"
  let _ ← removeAccount "remove account last_login_at" (kAcctLastLogin uid)
  let _ ← removeAccount "remove account created_at" (kAcctCreatedAt uid)
  let _ ← clearActiveUid "remove active uid" uid (pure .unit)
  let _ ← touch "flush global db"
  let current ← loadCurrentUid
  if current = some uid then
    clearCurrentUid
  else
    pure .unit

structure LocalAccountEntry where
  uid : String
  createdAt : Int
  lastLoginAt : Int
  displayName : Option String
  username : Option String
  loginMode : Option String
  loginIdentifier : Option String
  deriving DecidableEq

/-- The uid in a key, by `strip_prefix` and `strip_suffix`. -/
def uidOfKey (key : String) : Option String :=
  match key.toList.dropPrefix? "acct/".toList with
  | none => none
  | some rest =>
      (rest.dropSuffix? "/last_login_at".toList).map String.ofList

/-- An `i64` of the accounts tree. -/
def readI64 (context : String) : KvValue → Except StoreError Int
  | .i64 value => .ok value
  | _ => .error (badValue context)

/-- A text of the accounts tree, with blank texts taken for none. -/
def Vault.readText (v : Vault) (key : String) : Option String :=
  match v.accounts.lookup key with
  | some (.text value) => (some (trim value)).filter (fun s => s != "")
  | _ => none

/-- The entry for one key of the accounts tree; other keys have none. -/
def Vault.accountEntry (v : Vault) (item : Sigma (fun _ : String => KvValue)) :
    Except StoreError (Option LocalAccountEntry) :=
  match uidOfKey item.1 with
  | none => .ok none
  | some uid =>
      match readI64 "invalid last_login_at bytes" item.2 with
      | .error e => .error e
      | .ok lastLoginAt =>
          let created := match v.accounts.lookup (kAcctCreatedAt uid) with
            | some raw => readI64 "invalid created_at bytes" raw
            | none => .ok lastLoginAt
          match created with
          | .error e => .error e
          | .ok createdAt =>
              .ok (some {
                uid := uid
                createdAt := createdAt
                lastLoginAt := lastLoginAt
                displayName := v.readText (kAcctDisplayName uid)
                username := v.readText (kAcctUsername uid)
                loginMode := v.readText (kAcctLoginMode uid)
                loginIdentifier := v.readText (kAcctLoginIdentifier uid) })

/-- The loop over the accounts tree. -/
def Vault.accountEntries (v : Vault) :
    List (Sigma (fun _ : String => KvValue)) → Except StoreError (List LocalAccountEntry)
  | [] => .ok []
  | item :: items =>
      match v.accountEntry item with
      | .error e => .error e
      | .ok none => v.accountEntries items
      | .ok (some entry) =>
          match v.accountEntries items with
          | .error e => .error e
          | .ok entries => .ok (entry :: entries)

/-- The latest login first, and by uid where logins are equal. -/
def LocalAccountEntry.before (a b : LocalAccountEntry) : Bool :=
  decide (b.lastLoginAt < a.lastLoginAt ∨ a.lastLoginAt = b.lastLoginAt ∧ a.uid ≤ b.uid)

/-- `list_local_accounts`. -/
def listLocalAccounts : VaultM (Option String × List LocalAccountEntry) := do
  let _ ← touch "open accounts tree"
  let activeUid ← loadCurrentUid
  let v ← stmt "iterate accounts" (fun v => (v, v))
  let out ← ofExcept (v.accountEntries v.accounts.entries)
  pure (activeUid, out.mergeSort LocalAccountEntry.before)

end Calls

end Accounts
end PrivchatSdk
