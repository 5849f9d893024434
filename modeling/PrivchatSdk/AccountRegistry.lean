import Mathlib.Data.List.DropRight
import Mathlib.Data.String.Basic
import PrivchatSdk.AccountVault

/-!
# What the account vault stands for

The vault stands for a registry: per account a token, a device, the bootstrap watermark,
the times of its first and latest login and the names for the account switcher.  The
calls that write the vault key by key under two ciphers do to the registry what their
names say, as long as no statement fails (`vault_refines`), and the list of the local
accounts is the accounts of the registry in the order of their latest login
(`listLocalAccounts_entries`).
-/

namespace PrivchatSdk
namespace Accounts

open StatementExec
open EventRun

section AccountKeys

/-- The columns that the accounts tree keeps for an account. -/
inductive AccountColumn where
  | lastLoginAt | createdAt | displayName | username | loginMode | loginIdentifier
  deriving DecidableEq

/-- The part of a key behind the slash. -/
def AccountColumn.name : AccountColumn → String
  | .lastLoginAt => "last_login_at"
  | .createdAt => "created_at"
  | .displayName => "display_name"
  | .username => "username"
  | .loginMode => "login_mode"
  | .loginIdentifier => "login_identifier"

def accountKey : AccountColumn → String → String
  | .lastLoginAt => kAcctLastLogin
  | .createdAt => kAcctCreatedAt
  | .displayName => kAcctDisplayName
  | .username => kAcctUsername
  | .loginMode => kAcctLoginMode
  | .loginIdentifier => kAcctLoginIdentifier

theorem toList_accountKey (column : AccountColumn) (uid : String) :
    (accountKey column uid).toList =
      "acct/".toList ++ (uid.toList ++ '/' :: column.name.toList) := by
  cases column with
  | lastLoginAt => simp [accountKey, kAcctLastLogin, AccountColumn.name]
  | createdAt => simp [accountKey, kAcctCreatedAt, AccountColumn.name]
  | displayName => simp [accountKey, kAcctDisplayName, AccountColumn.name]
  | username => simp [accountKey, kAcctUsername, AccountColumn.name]
  | loginMode => simp [accountKey, kAcctLoginMode, AccountColumn.name]
  | loginIdentifier => simp [accountKey, kAcctLoginIdentifier, AccountColumn.name]

theorem AccountColumn.name_injective {c c' : AccountColumn} (h : c.name = c'.name) :
    c = c' := by
  revert h
  cases c <;> cases c' <;> decide

/-- The text behind the last slash. -/
theorem rtakeWhile_slash (front : List Char) (column : AccountColumn) :
    (front ++ '/' :: column.name.toList).rtakeWhile (fun c => c != '/') = column.name.toList := by
  have hname : ∀ c ∈ column.name.toList.reverse, (c != '/') = true := by
    cases column <;> simp [AccountColumn.name]
  unfold List.rtakeWhile
  rw [List.reverse_append, List.reverse_cons, List.append_assoc,
    List.takeWhile_append_of_pos hname]
  simp

/-- A key tells the column and the account. -/
theorem accountKey_inj (c c' : AccountColumn) {uid uid' : String}
    (h : accountKey c uid = accountKey c' uid') : c = c' ∧ uid = uid' := by
  have hlist := congrArg String.toList h
  rw [toList_accountKey, toList_accountKey] at hlist
  have hrest := List.append_cancel_left hlist
  have hname := congrArg (List.rtakeWhile (fun c => c != '/')) hrest
  rw [rtakeWhile_slash, rtakeWhile_slash] at hname
  have hcolumn := AccountColumn.name_injective (String.toList_injective hname)
  subst hcolumn
  exact ⟨rfl, String.toList_injective (List.append_cancel_right hrest)⟩

theorem accountKey_ne_activeUid (c : AccountColumn) (uid : String) :
    accountKey c uid ≠ kActiveUid := by
  intro h
  have hlist := congrArg String.toList h
  rw [toList_accountKey] at hlist
  simp [kActiveUid] at hlist

theorem accountKey_ne_schemaVersion (c : AccountColumn) (uid : String) :
    accountKey c uid ≠ "schema_version" := by
  intro h
  have hlist := congrArg String.toList h
  rw [toList_accountKey] at hlist
  simp at hlist

/-- The loop over the accounts tree recognises the keys of the latest logins. -/
theorem uidOfKey_eq_some (key uid : String) :
    uidOfKey key = some uid ↔ key = accountKey .lastLoginAt uid := by
  have hkey : key = accountKey .lastLoginAt uid ↔
      key.toList = "acct/".toList ++ (uid.toList ++ "/last_login_at".toList) := by
    rw [← String.toList_inj, toList_accountKey]
    rfl
  rw [hkey]
  unfold uidOfKey
  cases hprefix : key.toList.dropPrefix? "acct/".toList with
  | none =>
      constructor
      · intro h
        cases h
      · intro h
        rw [h, List.dropPrefix?_append_of_beq _ (beq_self_eq_true _)] at hprefix
        cases hprefix
  | some rest =>
      obtain ⟨front, hsplit, hfront⟩ := List.dropPrefix?_eq_some_iff.mp hprefix
      rw [eq_of_beq hfront] at hsplit
      rw [hsplit]
      simp only [Option.map_eq_some_iff, List.append_cancel_left_eq]
      constructor
      · rintro ⟨middle, hsuffix, rfl⟩
        obtain ⟨tail, hrest, htail⟩ := List.dropSuffix?_eq_some_iff.mp hsuffix
        rw [hrest, eq_of_beq htail, show (String.ofList middle).toList = middle from String.toList_ofList]
      · intro h
        refine ⟨uid.toList, ?_, String.ofList_toList⟩
        exact List.dropSuffix?_eq_some_iff.mpr ⟨_, h, beq_self_eq_true _⟩

end AccountKeys

section Registry

/-- What the stores of an account say. -/
structure Account where
  hasKey : Bool
  token : Option String
  deviceId : Option String
  watermark : Option Bool
  /-- The times of the first and of the latest login. -/
  login : Option (Int × Int)
  displayName : Option String
  username : Option String
  loginMode : Option String
  loginIdentifier : Option String

def Account.empty : Account where
  hasKey := false
  token := none
  deviceId := none
  watermark := none
  login := none
  displayName := none
  username := none
  loginMode := none
  loginIdentifier := none

structure Registry where
  account : String → Account
  dbs : UserDbs
  currentUser : Option String
  activeUid : Option String

def Registry.start (file : String → UserDb) : Registry where
  account := fun _ => Account.empty
  dbs := { file := file, conn := fun _ => .closed }
  currentUser := none
  activeUid := none

def Registry.set (r : Registry) (uid : String) (a : Account) : Registry :=
  { r with account := Function.update r.account uid a }

@[simp] theorem Registry.set_account (r : Registry) (uid : String) (a : Account) :
    (r.set uid a).account uid = a := by
  exact Function.update_self uid a r.account

theorem Registry.set_account_of_ne (r : Registry) {uid u : String} (h : u ≠ uid)
    (a : Account) : (r.set uid a).account u = r.account u := by
  exact Function.update_of_ne h a r.account

def UserDbs.clearLegacy (d : UserDbs) (uid : String) : UserDbs :=
  (d.connect uid).write uid { d.seen uid with authSession := none }

def Registry.legacy (r : Registry) (uid : String) : Option SessionSnapshot :=
  (r.dbs.seen uid).authSession

/-- Whether the account was synchronised once. -/
def Registry.bootstrapCompleted (r : Registry) (uid : String) : Bool :=
  match (r.account uid).watermark with
  | some b => b
  | none => ((r.legacy uid).map SessionSnapshot.bootstrapCompleted).getD false

def Registry.saveLogin (r : Registry) (now : Int) (uid : String) (login : LoginResult) :
    Registry :=
  let a := r.account uid
  { r.set uid { a with
      hasKey := true
      token := some login.token
      deviceId := some login.deviceId
      watermark := some (r.bootstrapCompleted uid)
      login := some ((a.login.map Prod.fst).getD now, now) } with
    dbs := r.dbs.clearLegacy uid
    currentUser := some uid
    activeUid := some uid }

def Registry.setBootstrapCompleted (r : Registry) (uid : String) (completed : Bool) :
    Registry :=
  r.set uid { r.account uid with watermark := some completed }

/-- The session of the account's own store. -/
def Account.session (a : Account) (uid : String) :
    Except StoreError (Option SessionSnapshot) :=
  match a.token, a.deviceId with
  | some token, some deviceId =>
      match parseU64 uid with
      | none => .error (badValue "parse profile uid")
      | some userId =>
          .ok (some {
            userId := userId
            token := token
            deviceId := deviceId
            bootstrapCompleted := a.watermark.getD false })
  | _, _ => .ok none

def Registry.ownSession (r : Registry) (uid : String) :
    Except StoreError (Option SessionSnapshot) :=
  (r.account uid).session uid

/-- The session that a load finds, in the account's own store or an older version's. -/
def Registry.session (r : Registry) (uid : String) :
    Except StoreError (Option SessionSnapshot) :=
  match r.ownSession uid with
  | .ok none => .ok (r.legacy uid)
  | found => found

/-- A load takes over the session of an older version. -/
def Registry.loadSession (r : Registry) (now : Int) (uid : String) : Registry :=
  match r.ownSession uid with
  | .ok none =>
      let r' := { r with dbs := r.dbs.connect uid }
      match r.legacy uid with
      | none => r'
      | some legacy =>
          (r'.saveLogin now uid
            { token := legacy.token, deviceId := legacy.deviceId, expiresAt := 0 }
            ).setBootstrapCompleted uid legacy.bootstrapCompleted
  | _ => r

def Registry.loadBootstrapCompleted (r : Registry) (uid : String) : Registry :=
  match (r.account uid).watermark with
  | some _ => r
  | none => { r with dbs := r.dbs.connect uid }

def Registry.clearActive (r : Registry) (uid : String) : Registry :=
  if r.activeUid = some uid then { r with activeUid := none } else r

def Registry.clearLegacy (r : Registry) (uid : String) : Registry :=
  { r with dbs := r.dbs.clearLegacy uid }

def Registry.clearSession (r : Registry) (uid : String) : Registry :=
  ((r.set uid { r.account uid with token := none, deviceId := none }).clearActive
    uid).clearLegacy uid

def Registry.updateAccessToken (r : Registry) (uid token : String) : Registry :=
  if (r.account uid).hasKey then
    r.set uid { r.account uid with token := some token }
  else
    r

/-- A text as it is kept; a blank one is none. -/
def nonBlank (value : Option String) : Option String :=
  (value.map trim).filter (fun v => v != "")

/-- A name of the account for the account switcher; the times are not names. -/
def Account.setText (a : Account) (text : String) : AccountColumn → Account
  | .displayName => { a with displayName := some text }
  | .username => { a with username := some text }
  | .loginMode => { a with loginMode := some text }
  | .loginIdentifier => { a with loginIdentifier := some text }
  | _ => a

/-- A blank text leaves the old one. -/
def Registry.setText (r : Registry) (uid : String) (c : AccountColumn)
    (value : Option String) : Registry :=
  match nonBlank value with
  | some text => r.set uid ((r.account uid).setText text c)
  | none => r

def Registry.saveAccountDisplayName (r : Registry) (uid : String)
    (displayName username loginMode loginIdentifier : Option String) : Registry :=
  (((r.setText uid .displayName displayName).setText uid .username username).setText uid
    .loginMode loginMode).setText uid .loginIdentifier loginIdentifier

def Registry.currentUid (r : Registry) : Option String :=
  nonBlank r.currentUser

/-- What a wipe leaves of an account: the names. -/
def Account.wiped (a : Account) : Account :=
  { Account.empty with
    displayName := a.displayName
    username := a.username
    loginMode := a.loginMode
    loginIdentifier := a.loginIdentifier }

/-- A wipe removes the files of an account; its database may be open. -/
def Registry.wipe (r : Registry) (uid : String) : Registry :=
  let r' : Registry := { r.set uid (r.account uid).wiped with dbs := r.dbs.remove uid }
  let r'' := r'.clearActive uid
  if r''.currentUid = some uid then { r'' with currentUser := none } else r''

end Registry

section Abstraction

variable (crypto : VaultCrypto)

/-- The installation has its id and its secret. -/
structure Complete (install : InstallKey → Option KvValue) (st : InstallState) : Prop where
  deviceId : install .deviceId = some (.text st.deviceId)
  installSecret : install .installSecret = some (.bytes st.installSecret)
  length : st.installSecret.length = 32

/-- The values of the installation have their types; some of them may be missing. -/
def InstallOk (install : InstallKey → Option KvValue) : Prop :=
  (install .deviceId = none ∨ ∃ id, install .deviceId = some (.text id)) ∧
    (install .installSecret = none ∨
      ∃ secret : Bytes, secret.length = 32 ∧ install .installSecret = some (.bytes secret))

theorem Complete.installOk {install : InstallKey → Option KvValue} {st : InstallState}
    (h : Complete install st) : InstallOk install :=
  ⟨.inr ⟨_, h.deviceId⟩, .inr ⟨_, h.length, h.installSecret⟩⟩

/-- The master key that an account's store holds under the key of the installation. -/
inductive HoldsKey (install : InstallKey → Option KvValue) (uid : String)
    (kv : AccountKey → Option KvValue) (key : Bytes) : Prop
  | intro (st : InstallState) (wrapped nonce : Bytes) (hinstall : Complete install st)
      (hwrapped : kv .masterKeyWrapped = some (.bytes wrapped))
      (hnonce : kv .masterKeyNonce = some (.bytes nonce))
      (hunwrap : unwrapMasterKey crypto uid st wrapped nonce = .ok key)

/-- The token that an account's store holds under a master key. -/
inductive HoldsToken (uid : String) (kv : AccountKey → Option KvValue) (key : Bytes)
    (token : String) : Prop
  | intro (ciphertext nonce : Bytes)
      (henc : kv .accessTokenEnc = some (.bytes ciphertext))
      (hnonce : kv .accessTokenNonce = some (.bytes nonce))
      (hdecrypt : decryptUserBlob crypto uid "access_token" key ciphertext nonce =
        .ok (utf8 token))

/-- The store of an account stands for what the registry says of it. -/
structure StandsFor (install : InstallKey → Option KvValue) (uid : String)
    (kv : AccountKey → Option KvValue) (a : Account) : Prop where
  key : a.hasKey = true → ∃ key, HoldsKey crypto install uid kv key ∧
    ∀ token, a.token = some token → HoldsToken crypto uid kv key token
  noKey : a.hasKey = false → kv .masterKeyWrapped = none ∧ kv .masterKeyNonce = none
  noToken : a.token = none → kv .accessTokenEnc = none ∧ kv .accessTokenNonce = none
  tokenKey : a.token ≠ none → a.hasKey = true
  device : kv .deviceIdCurrent = a.deviceId.map KvValue.text
  profile : kv .uid = some (.text uid) ∨ kv .uid = none ∧ a.deviceId = none
  watermark : kv .bootstrapCompleted = a.watermark.map boolI32

def Account.column (a : Account) : AccountColumn → Option KvValue
  | .lastLoginAt => a.login.map (fun l => .i64 l.2)
  | .createdAt => a.login.map (fun l => .i64 l.1)
  | .displayName => a.displayName.map KvValue.text
  | .username => a.username.map KvValue.text
  | .loginMode => a.loginMode.map KvValue.text
  | .loginIdentifier => a.loginIdentifier.map KvValue.text

/-- The vault stands for the registry. -/
structure Refines (v : Vault) (r : Registry) : Prop where
  install : InstallOk v.install
  account : ∀ uid, StandsFor crypto v.install uid (v.accountKv uid) (r.account uid)
  column : ∀ c uid, v.accounts.lookup (accountKey c uid) = (r.account uid).column c
  active : v.accounts.lookup kActiveUid = r.activeUid.map KvValue.text
  dbs : v.dbs = r.dbs
  currentUser : v.currentUser = r.currentUser

theorem refines_start (file : String → UserDb) :
    Refines crypto (Vault.start file) (Registry.start file) where
  install := ⟨.inl rfl, .inl rfl⟩
  account := fun uid => {
    key := Bool.noConfusion
    noKey := fun _ => ⟨rfl, rfl⟩
    noToken := fun _ => ⟨rfl, rfl⟩
    tokenKey := fun h => absurd rfl h
    device := rfl
    profile := .inr ⟨rfl, rfl⟩
    watermark := rfl }
  column := by
    intro c uid
    cases c <;> rfl
  active := rfl
  dbs := rfl
  currentUser := rfl

end Abstraction

section KeyCalls

variable {crypto : VaultCrypto} {e : VaultEnv} {v : Vault}

theorem fromUtf8_utf8 (text : String) : fromUtf8 (utf8 text) = some text := by
  unfold fromUtf8 utf8 String.fromUTF8?
  rw [Array.toArray_toList]
  exact dif_pos text.isValidUTF8

theorem Complete.unique {install : InstallKey → Option KvValue} {st st' : InstallState}
    (h : Complete install st) (h' : Complete install st') : st = st' := by
  have hid := h.deviceId.symm.trans h'.deviceId
  have hsecret := h.installSecret.symm.trans h'.installSecret
  cases st
  cases st'
  simp only [Option.some.injEq, KvValue.text.injEq] at hid
  simp only [Option.some.injEq, KvValue.bytes.injEq] at hsecret
  rw [hid, hsecret]

theorem getInstallState_complete {st : InstallState} (he : e.Calm)
    (h : Complete v.install st) : getInstallState e v = (.ok st, v) := by
  unfold getInstallState
  simp only [Exec.bind_run, touch_calm he, stmt_calm he, ofExcept_run, h.deviceId,
    h.installSecret, getString, if_pos h.length, Exec.pure_run]

/-- The tree `install` that a call makes. -/
def VaultEnv.newInstall (e : VaultEnv) : InstallKey → Option KvValue
  | .schemaVersion => some (.i32 1)
  | .deviceId => some (.text e.deviceId)
  | .installSecret => some (.bytes e.installSecret.toList)
  | .createdAt => some (.i64 e.now)

/-- The first call that needs the installation makes it. -/
theorem getInstallState_calm (he : e.Calm) (h : InstallOk v.install) :
    ∃ st install, getInstallState e v = (.ok st, { v with install := install }) ∧
      Complete install st ∧ ((∃ st', Complete v.install st') → install = v.install) := by
  have hnew : Function.update (Function.update (Function.update (Function.update
      v.install .schemaVersion (some (.i32 1))) .deviceId (some (.text e.deviceId)))
      .installSecret (some (.bytes e.installSecret.toList))) .createdAt
      (some (.i64 e.now)) = e.newInstall := by
    funext k
    cases k <;> simp [VaultEnv.newInstall]
  obtain ⟨hid | ⟨id, hid⟩, hsecret | ⟨secret, hlength, hsecret⟩⟩ := h
  case inr.inr =>
    have hst : Complete v.install { deviceId := id, installSecret := secret } :=
      ⟨hid, hsecret, hlength⟩
    exact ⟨_, v.install, getInstallState_complete he hst, hst, fun _ => rfl⟩
  all_goals
    refine ⟨{ deviceId := e.deviceId, installSecret := e.installSecret.toList },
      e.newInstall, ?_, ⟨rfl, rfl, by simp⟩, ?_⟩
    · unfold getInstallState
      simp only [Exec.bind_run, touch_calm he, stmt_calm he, ofExcept_run, hid, hsecret,
        getString, env_run, insertInstall_calm he, Exec.pure_run, hnew]
    · rintro ⟨st', hst'⟩
      have hid' := hst'.deviceId
      have hsecret' := hst'.installSecret
      simp [hid, hsecret] at hid' hsecret'

theorem HoldsKey.unique {install : InstallKey → Option KvValue} {uid : String}
    {kv : AccountKey → Option KvValue} {key key' : Bytes}
    (h : HoldsKey crypto install uid kv key) (h' : HoldsKey crypto install uid kv key') :
    key = key' := by
  obtain ⟨st, wrapped, nonce, hinstall, hwrapped, hnonce, hunwrap⟩ := h
  obtain ⟨st', wrapped', nonce', hinstall', hwrapped', hnonce', hunwrap'⟩ := h'
  have hst := hinstall.unique hinstall'
  have hw := hwrapped.symm.trans hwrapped'
  have hn := hnonce.symm.trans hnonce'
  simp only [Option.some.injEq, KvValue.bytes.injEq] at hw hn
  subst hst hw hn
  exact Except.ok.inj (hunwrap.symm.trans hunwrap')

theorem getOrCreateMasterKey_holds {uid : String} {key : Bytes} {st : InstallState}
    (he : e.Calm) (h : HoldsKey crypto v.install uid (v.accountKv uid) key)
    (hst : Complete v.install st) :
    getOrCreateMasterKey crypto uid st e v = (.ok key, v) := by
  obtain ⟨st', wrapped, nonce, hinstall, hwrapped, hnonce, hunwrap⟩ := h
  have heq := hst.unique hinstall
  subst heq
  unfold getOrCreateMasterKey
  simp only [Exec.bind_run, readKey_calm he, hwrapped, hnonce, ofExcept_run, hunwrap]

theorem unwrapMasterKey_wrapped (hcrypto : crypto.Correct) {uid : String}
    {st : InstallState} {key wrapped : Bytes} {nonce : Vector UInt8 12}
    (hlength : key.length = 32)
    (h : crypto.encrypt (crypto.deriveWrapKey st.deviceId st.installSecret uid)
      nonce.toList key (wrapAad uid) = some wrapped) :
    unwrapMasterKey crypto uid st wrapped nonce.toList = .ok key := by
  unfold unwrapMasterKey
  simp [hcrypto.opens _ _ _ _ _ h, hlength]

/-- The store of an account whose master key has no nonce gets a new one. -/
theorem getOrCreateMasterKey_creates {uid : String} {st : InstallState}
    (he : e.Calm) (hcrypto : crypto.Correct) (hst : Complete v.install st)
    (hnone : v.accountKv uid .masterKeyNonce = none) :
    ∃ key kv, getOrCreateMasterKey crypto uid st e v = (.ok key, v.withKv uid kv) ∧
      HoldsKey crypto v.install uid kv key := by
  obtain ⟨wrapped, hwrapped⟩ := Option.isSome_iff_exists.mp (hcrypto.seals
    (crypto.deriveWrapKey st.deviceId st.installSecret uid) e.wrapNonce.toList
    e.masterKey.toList (wrapAad uid))
  refine ⟨e.masterKey.toList, Function.update (Function.update (v.accountKv uid)
    .masterKeyWrapped (some (.bytes wrapped))) .masterKeyNonce
    (some (.bytes e.wrapNonce.toList)), ?_,
    ⟨st, wrapped, e.wrapNonce.toList, hst, by simp, by simp,
      unwrapMasterKey_wrapped hcrypto (by simp) hwrapped⟩⟩
  unfold getOrCreateMasterKey
  simp only [Exec.bind_run, readKey_calm he, hnone]
  rcases v.accountKv uid .masterKeyWrapped with _ | (_ | _ | _ | _)
  all_goals
    simp only [Exec.bind_run, env_run, hwrapped, insertKey_calm he, Exec.pure_run,
      Vault.setKey, Vault.withKv_withKv, Vault.withKv_accountKv]

/-- A master key that has its nonce opens. -/
def KeyOk (crypto : VaultCrypto) (v : Vault) (uid : String) : Prop :=
  v.accountKv uid .masterKeyNonce = none ∨
    ∃ key, HoldsKey crypto v.install uid (v.accountKv uid) key

/-- A login finds or makes the master key of its account. -/
theorem KeyOk.getOrCreateMasterKey {uid : String} {st : InstallState}
    (h : KeyOk crypto v uid) (he : e.Calm) (hcrypto : crypto.Correct)
    (hst : Complete v.install st) :
    ∃ key kv, getOrCreateMasterKey crypto uid st e v = (.ok key, v.withKv uid kv) ∧
      HoldsKey crypto v.install uid kv key := by
  rcases h with hnone | ⟨key, hholds⟩
  · exact getOrCreateMasterKey_creates he hcrypto hst hnone
  · refine ⟨key, v.accountKv uid, ?_, hholds⟩
    rw [Vault.withKv_self]
    exact getOrCreateMasterKey_holds he hholds hst

theorem encryptUserBlob_calm (hcrypto : crypto.Correct) (uid purpose : String)
    (key plain : Bytes) :
    ∃ blob, encryptUserBlob crypto uid purpose key plain e v = (.ok blob, v) ∧
      decryptUserBlob crypto uid purpose key blob.1 blob.2 = .ok plain := by
  obtain ⟨ciphertext, hcipher⟩ := Option.isSome_iff_exists.mp (hcrypto.seals
    key e.tokenNonce.toList plain (tokenAad uid purpose))
  refine ⟨(ciphertext, e.tokenNonce.toList), ?_, ?_⟩
  · unfold encryptUserBlob
    simp only [Exec.bind_run, env_run, hcipher, Exec.pure_run]
  · unfold decryptUserBlob
    simp [hcrypto.opens _ _ _ _ _ hcipher]

theorem loadMasterKey_holds {uid : String} {key : Bytes} (he : e.Calm)
    (h : HoldsKey crypto v.install uid (v.accountKv uid) key) :
    loadMasterKey crypto uid e v = (.ok key, v) := by
  obtain ⟨st, wrapped, nonce, hinstall, hwrapped, hnonce, hunwrap⟩ := h
  unfold loadMasterKey
  simp only [Exec.bind_run, getInstallState_complete he hinstall, readKey_calm he, hwrapped,
    hnonce, ofExcept_run, hunwrap]

/-- What a load of the master key says where it has no nonce. -/
def missingKey : Option KvValue → StoreError
  | some _ => badValue "master key nonce not initialized"
  | none => badValue "master key not initialized"

theorem loadMasterKey_none (crypto : VaultCrypto) {uid : String} (he : e.Calm)
    (hinstall : InstallOk v.install) (hnone : v.accountKv uid .masterKeyNonce = none) :
    ∃ install, loadMasterKey crypto uid e v =
      (.error (missingKey (v.accountKv uid .masterKeyWrapped)),
        { v with install := install }) ∧
        InstallOk install ∧ ((∃ st', Complete v.install st') → install = v.install) := by
  obtain ⟨st, install, hrun, hst, hkeep⟩ := getInstallState_calm he hinstall
  refine ⟨install, ?_, hst.installOk, hkeep⟩
  unfold loadMasterKey
  simp only [Exec.bind_run, hrun, readKey_calm he, hnone]
  rcases v.accountKv uid .masterKeyWrapped with _ | (_ | _ | _ | _)
  all_goals rfl

end KeyCalls

section Readers

variable {crypto : VaultCrypto} {e : VaultEnv} {v : Vault} {r : Registry}

theorem i32FromBeSlice_boolI32 (b : Bool) :
    i32FromBeSlice (boolI32 b) = .ok (if b then 1 else 0) := by
  rfl

theorem loadLegacySession_calm (he : e.Calm) (uid : String) (v : Vault) :
    loadLegacySession uid e v =
      (.ok (v.dbs.seen uid).authSession, { v with dbs := v.dbs.connect uid }) := by
  unfold loadLegacySession
  rw [withConn_calm he, ← UserDbs.seen_connect v.dbs uid uid, UserDbs.write_seen]

theorem Refines.loadBootstrapCompleted (h : Refines crypto v r) (he : e.Calm)
    (uid : String) :
    loadBootstrapCompleted uid e v =
      (.ok (r.bootstrapCompleted uid),
        { v with dbs := (r.loadBootstrapCompleted uid).dbs }) := by
  have hkv := (h.account uid).watermark
  unfold Accounts.loadBootstrapCompleted
  simp only [Exec.bind_run, touch_calm he, readKey_calm he, hkv]
  unfold Registry.bootstrapCompleted Registry.loadBootstrapCompleted
  cases hmark : (r.account uid).watermark with
  | some b =>
      simp only [Option.map_some, Exec.bind_run, ofExcept_run, i32FromBeSlice_boolI32,
        Exec.pure_run, ← h.dbs]
      cases b <;> rfl
  | none =>
      simp only [Option.map_none, Exec.bind_run, loadLegacySession_calm he, Exec.pure_run,
        Registry.legacy, h.dbs]

/-- A token is read back. -/
theorem StandsFor.token_holds {uid token : String} {a : Account}
    (h : StandsFor crypto v.install uid (v.accountKv uid) a) (htoken : a.token = some token) :
    ∃ key ciphertext nonce, HoldsKey crypto v.install uid (v.accountKv uid) key ∧
      v.accountKv uid .accessTokenEnc = some (.bytes ciphertext) ∧
      v.accountKv uid .accessTokenNonce = some (.bytes nonce) ∧
      decryptUserBlob crypto uid "access_token" key ciphertext nonce =
        .ok (utf8 token) := by
  have hkey := h.tokenKey (by simp [htoken])
  obtain ⟨key, hholds, htokens⟩ := h.key hkey
  obtain ⟨ciphertext, nonce, henc, hnonce, hdecrypt⟩ := htokens token htoken
  exact ⟨key, ciphertext, nonce, hholds, henc, hnonce, hdecrypt⟩

theorem StandsFor.loadAccessToken {uid : String} {a : Account}
    (h : StandsFor crypto v.install uid (v.accountKv uid) a) (he : e.Calm) :
    loadAccessToken crypto uid e v = (.ok a.token, v) := by
  unfold Accounts.loadAccessToken
  simp only [Exec.bind_run, touch_calm he, readKey_calm he]
  cases htoken : a.token with
  | none =>
      obtain ⟨henc, hnonce⟩ := h.noToken htoken
      simp only [henc, hnonce, Exec.pure_run]
  | some token =>
      obtain ⟨key, ciphertext, nonce, hholds, henc, hnonce, hdecrypt⟩ :=
        h.token_holds htoken
      simp only [henc, hnonce, Exec.bind_run, loadMasterKey_holds he hholds, ofExcept_run,
        hdecrypt, fromUtf8_utf8, Exec.pure_run]

theorem getString_text (context : String) (text : Option String) :
    getString context (text.map KvValue.text) = .ok text := by
  cases text with
  | none => rfl
  | some value => rfl

/-- The profile names the account, or there is no device either. -/
theorem StandsFor.profileUid {install : InstallKey → Option KvValue} {uid : String}
    {kv : AccountKey → Option KvValue} {a : Account}
    (h : StandsFor crypto install uid kv a) (context : String) :
    ∃ profileUid, getString context (kv .uid) = .ok profileUid ∧
      (a.deviceId ≠ none → profileUid = some uid) := by
  rcases h.profile with hprofile | ⟨hprofile, hdevice⟩
  · exact ⟨some uid, by rw [hprofile]; rfl, fun _ => rfl⟩
  · exact ⟨none, by rw [hprofile]; rfl, fun hne => absurd hdevice hne⟩

theorem StandsFor.loadSessionFromAccount {uid : String} {a : Account}
    (h : StandsFor crypto v.install uid (v.accountKv uid) a) (he : e.Calm) :
    loadSessionFromAccount crypto uid e v = (a.session uid, v) := by
  obtain ⟨profileUid, hprofile, hsome⟩ := h.profileUid "key uid is not valid utf8"
  unfold Accounts.loadSessionFromAccount Account.session
  simp only [Exec.bind_run, touch_calm he, readKey_calm he, ofExcept_run, h.device,
    getString_text, hprofile]
  cases htoken : a.token with
  | none =>
      obtain ⟨henc, hnonce⟩ := h.noToken htoken
      simp only [henc, hnonce, Exec.pure_run]
  | some token =>
      obtain ⟨key, ciphertext, nonce, hholds, henc, hnonce, hdecrypt⟩ :=
        h.token_holds htoken
      simp only [henc, hnonce]
      cases hid : a.deviceId with
      | none => rfl
      | some deviceId =>
          rw [hsome (by simp [hid])]
          simp only [Exec.bind_run, loadMasterKey_holds he hholds, ofExcept_run, hdecrypt,
            fromUtf8_utf8]
          cases parseU64 uid with
          | none => rfl
          | some userId =>
              simp only [Exec.bind_run, readKey_calm he, h.watermark, ofExcept_run]
              cases a.watermark with
              | none => rfl
              | some b => cases b <;> rfl

end Readers

section Writers

variable {crypto : VaultCrypto} {e : VaultEnv} {v : Vault} {r : Registry} {uid : String}

/-- An account's store means the same when the installation is made meanwhile. -/
theorem StandsFor.keep_install {install install' : InstallKey → Option KvValue}
    {kv : AccountKey → Option KvValue} {a : Account}
    (h : StandsFor crypto install uid kv a)
    (hkeep : (∃ st, Complete install st) → install' = install) :
    StandsFor crypto install' uid kv a := by
  refine ⟨?_, h.noKey, h.noToken, h.tokenKey, h.device, h.profile, h.watermark⟩
  intro hkey
  obtain ⟨key, hholds, htokens⟩ := h.key hkey
  have hsame : install' = install := by
    obtain ⟨st, _, _, hinstall, _, _, _⟩ := hholds
    exact hkeep ⟨st, hinstall⟩
  rw [hsame]
  exact ⟨key, hholds, htokens⟩

/-- Only one account's store and record change. -/
theorem Refines.set_account (h : Refines crypto v r)
    {install : InstallKey → Option KvValue} {kv : AccountKey → Option KvValue} {a : Account}
    (hkeep : (∃ st, Complete v.install st) → install = v.install)
    (ha : StandsFor crypto install uid kv a) (u : String) :
    StandsFor crypto install u ((v.withKv uid kv).accountKv u)
      ((r.set uid a).account u) := by
  by_cases hu : u = uid
  · subst hu
    rw [Vault.withKv_accountKv, Registry.set_account]
    exact ha
  · rw [Vault.withKv_accountKv_of_ne v hu, Registry.set_account_of_ne r hu]
    exact (h.account u).keep_install hkeep

theorem Refines.set_column (h : Refines crypto v r) {a : Account}
    (ha : ∀ c, (r.account uid).column c = a.column c) (c : AccountColumn) (u : String) :
    v.accounts.lookup (accountKey c u) = ((r.set uid a).account u).column c := by
  rw [h.column c u]
  by_cases hu : u = uid
  · subst hu
    rw [Registry.set_account]
    exact ha c
  · rw [Registry.set_account_of_ne r hu]

/-- What a login leaves in the account's own store. -/
def savedKv (kv : AccountKey → Option KvValue) (now : Int) (uid : String)
    (login : LoginResult) (bootstrapCompleted : Bool) (blob : Bytes × Bytes) :
    AccountKey → Option KvValue
  | .schemaVersion => some (.i32 1)
  | .wrapVersion => some (.i32 1)
  | .wrapAlg => some (.text "HKDF-SHA256+AES-256-GCM")
  | .lastLoginAt => some (.i64 now)
  | .bootstrapCompleted => some (boolI32 bootstrapCompleted)
  | .userWrapEnabled => some (.i32 0)
  | .userWrapVersion => some (.i32 0)
  | .uid => some (.text uid)
  | .profileUpdatedAt => some (.i64 now)
  | .masterKeyWrapped => kv .masterKeyWrapped
  | .masterKeyNonce => kv .masterKeyNonce
  | .accessTokenAlg => some (.text "AES-256-GCM")
  | .accessTokenEnc => some (.bytes blob.1)
  | .accessTokenNonce => some (.bytes blob.2)
  | .deviceIdCurrent => some (.text login.deviceId)
  | .tokenExpireAt => some (.i64 (clampI64 login.expiresAt))

theorem saveAccountKv_calm (he : e.Calm) (uid : String) (login : LoginResult)
    (bootstrapCompleted : Bool) (blob : Bytes × Bytes) (v : Vault) :
    saveAccountKv uid login bootstrapCompleted blob e v =
      (.ok .unit,
        v.withKv uid
          (savedKv (v.accountKv uid) e.now uid login bootstrapCompleted blob)) := by
  unfold saveAccountKv
  simp only [Exec.bind_run, env_run, touch_calm he, insertKey_calm he, Vault.setKey,
    Vault.withKv_withKv, Vault.withKv_accountKv]
  congr 2
  funext k
  cases k <;> simp [savedKv]

/-- What a login leaves in the accounts tree. -/
def savedAccounts (accounts : AList (fun _ : String => KvValue)) (now : Int)
    (uid : String) : AList (fun _ : String => KvValue) :=
  let accounts' := (accounts.insert "schema_version" (.i32 1)).insert kActiveUid (.text uid)
  (if (accounts'.lookup (kAcctCreatedAt uid)).isNone then
      accounts'.insert (kAcctCreatedAt uid) (.i64 now)
    else
      accounts').insert (kAcctLastLogin uid) (.i64 now)

theorem saveAccountEntry_calm (he : e.Calm) (uid : String) (v : Vault) :
    saveAccountEntry uid e v =
      (.ok .unit, { v with accounts := savedAccounts v.accounts e.now uid }) := by
  unfold saveAccountEntry savedAccounts
  simp only [Exec.bind_run, env_run, touch_calm he, insertAccount_calm he, stmt_calm he]
  cases (((v.accounts.insert "schema_version" (.i32 1)).insert kActiveUid
      (.text uid)).lookup (kAcctCreatedAt uid)).isNone with
  | true => simp only [if_true, insertAccount_calm he]
  | false =>
      simp only [Bool.false_eq_true, if_false, Exec.pure_run]

theorem savedAccounts_lastLoginAt (accounts : AList (fun _ : String => KvValue)) (now : Int)
    (uid : String) :
    (savedAccounts accounts now uid).lookup (accountKey .lastLoginAt uid) =
      some (.i64 now) := by
  unfold savedAccounts
  exact AList.lookup_insert _

theorem savedAccounts_createdAt (accounts : AList (fun _ : String => KvValue)) (now : Int)
    (uid : String) :
    (savedAccounts accounts now uid).lookup (accountKey .createdAt uid) =
      some ((accounts.lookup (accountKey .createdAt uid)).getD (.i64 now)) := by
  have hlogin : accountKey .createdAt uid ≠ kAcctLastLogin uid := by
    intro heq
    exact absurd (accountKey_inj .createdAt .lastLoginAt heq).1 (by decide)
  have hbase : ((accounts.insert "schema_version" (.i32 1)).insert kActiveUid
      (.text uid)).lookup (kAcctCreatedAt uid) =
        accounts.lookup (accountKey .createdAt uid) := by
    have hactive : kAcctCreatedAt uid ≠ kActiveUid :=
      accountKey_ne_activeUid .createdAt uid
    have hschema : kAcctCreatedAt uid ≠ "schema_version" :=
      accountKey_ne_schemaVersion .createdAt uid
    rw [AList.lookup_insert_ne hactive, AList.lookup_insert_ne hschema]
    rfl
  unfold savedAccounts
  rw [AList.lookup_insert_ne hlogin]
  simp only [hbase]
  cases hcreated : accounts.lookup (accountKey .createdAt uid) with
  | none =>
      simp only [Option.isNone_none, if_true, Option.getD_none]
      exact AList.lookup_insert _
  | some value =>
      simp only [Option.isNone_some, Bool.false_eq_true, if_false, Option.getD_some]
      exact hbase.trans hcreated

/-- The other keys are left alone. -/
theorem savedAccounts_of_ne (accounts : AList (fun _ : String => KvValue)) (now : Int)
    {uid key : String} (hschema : key ≠ "schema_version") (hactive : key ≠ kActiveUid)
    (hcreated : key ≠ kAcctCreatedAt uid) (hlogin : key ≠ kAcctLastLogin uid) :
    (savedAccounts accounts now uid).lookup key = accounts.lookup key := by
  have hbase : ((accounts.insert "schema_version" (.i32 1)).insert kActiveUid
      (.text uid)).lookup key = accounts.lookup key := by
    rw [AList.lookup_insert_ne hactive, AList.lookup_insert_ne hschema]
  unfold savedAccounts
  rw [AList.lookup_insert_ne hlogin]
  split
  · rw [AList.lookup_insert_ne hcreated, hbase]
  · exact hbase

theorem savedAccounts_activeUid (accounts : AList (fun _ : String => KvValue)) (now : Int)
    (uid : String) :
    (savedAccounts accounts now uid).lookup kActiveUid = some (.text uid) := by
  have hcreated : kActiveUid ≠ kAcctCreatedAt uid :=
    (accountKey_ne_activeUid .createdAt uid).symm
  have hlogin : kActiveUid ≠ kAcctLastLogin uid :=
    (accountKey_ne_activeUid .lastLoginAt uid).symm
  unfold savedAccounts
  rw [AList.lookup_insert_ne hlogin]
  split
  · rw [AList.lookup_insert_ne hcreated]
    exact AList.lookup_insert _
  · exact AList.lookup_insert _

theorem clearLegacySession_calm (he : e.Calm) (uid : String) (v : Vault) :
    clearLegacySession uid e v =
      (.ok .unit, { v with dbs := v.dbs.clearLegacy uid }) := by
  unfold clearLegacySession
  rw [withConn_calm he]
  rfl

theorem UserDbs.clearLegacy_connect (d : UserDbs) (uid : String) :
    (d.connect uid).clearLegacy uid = d.clearLegacy uid := by
  have hidem : (d.connect uid).connect uid = d.connect uid := by
    unfold UserDbs.connect
    cases hconn : d.conn uid with
    | closed => simp
    | attached => simp [hconn]
    | unlinked db => simp [hconn]
  unfold UserDbs.clearLegacy
  rw [hidem, UserDbs.seen_connect]

theorem Registry.clearLegacy_loadBootstrapCompleted (r : Registry) (uid : String) :
    (r.loadBootstrapCompleted uid).dbs.clearLegacy uid = r.dbs.clearLegacy uid := by
  unfold Registry.loadBootstrapCompleted
  cases (r.account uid).watermark with
  | some b => rfl
  | none => exact UserDbs.clearLegacy_connect r.dbs uid

/-- The store of an account behind a login. -/
theorem standsFor_savedKv {install : InstallKey → Option KvValue}
    {kv : AccountKey → Option KvValue} {key : Bytes} {login : LoginResult}
    {blob : Bytes × Bytes}
    (hholds : HoldsKey crypto install uid kv key)
    (hblob : decryptUserBlob crypto uid "access_token" key blob.1 blob.2 =
      .ok (utf8 login.token)) (a : Account) (b : Bool) (now : Int)
    (loginTimes : Option (Int × Int)) :
    StandsFor crypto install uid (savedKv kv now uid login b blob)
      { a with
        hasKey := true
        token := some login.token
        deviceId := some login.deviceId
        watermark := some b
        login := loginTimes } := by
  refine ⟨?_, Bool.noConfusion, nofun, fun _ => rfl, rfl, .inl rfl, rfl⟩
  intro _
  obtain ⟨st, wrapped, nonce, hinstall, hwrapped, hnonce, hunwrap⟩ := hholds
  refine ⟨key, ⟨st, wrapped, nonce, hinstall, hwrapped, hnonce, hunwrap⟩, ?_⟩
  intro token htoken
  obtain rfl := Option.some.inj htoken
  exact ⟨blob.1, blob.2, rfl, rfl, hblob⟩

/-- The columns of the accounts tree behind a login. -/
theorem Refines.savedAccounts (h : Refines crypto v r) (now : Int) (login : LoginResult)
    (uid : String) (c : AccountColumn) (u : String) :
    (savedAccounts v.accounts now uid).lookup (accountKey c u) =
      ((r.saveLogin now uid login).account u).column c := by
  by_cases hu : u = uid
  · subst hu
    have hset : (r.saveLogin now u login).account u =
        { r.account u with
          hasKey := true
          token := some login.token
          deviceId := some login.deviceId
          watermark := some (r.bootstrapCompleted u)
          login := some (((r.account u).login.map Prod.fst).getD now, now) } :=
      Registry.set_account r u _
    rw [hset]
    have hother : c ≠ .lastLoginAt → c ≠ .createdAt →
        (Accounts.savedAccounts v.accounts now u).lookup (accountKey c u) =
          (r.account u).column c := by
      intro hlast hcreated
      rw [← h.column c u]
      refine savedAccounts_of_ne v.accounts now (accountKey_ne_schemaVersion c u)
        (accountKey_ne_activeUid c u) ?_ ?_
      · exact fun heq => hcreated (accountKey_inj c .createdAt heq).1
      · exact fun heq => hlast (accountKey_inj c .lastLoginAt heq).1
    cases c with
    | lastLoginAt => exact savedAccounts_lastLoginAt v.accounts now u
    | createdAt =>
        rw [savedAccounts_createdAt, h.column .createdAt u]
        simp only [Account.column]
        cases (r.account u).login <;> rfl
    | displayName => exact hother (by decide) (by decide)
    | username => exact hother (by decide) (by decide)
    | loginMode => exact hother (by decide) (by decide)
    | loginIdentifier => exact hother (by decide) (by decide)
  · have hset : (r.saveLogin now uid login).account u = r.account u :=
      Registry.set_account_of_ne r hu _
    rw [hset, ← h.column c u]
    refine savedAccounts_of_ne v.accounts now (accountKey_ne_schemaVersion c u)
      (accountKey_ne_activeUid c u) ?_ ?_
    · exact fun heq => hu (accountKey_inj c .createdAt heq).2
    · exact fun heq => hu (accountKey_inj c .lastLoginAt heq).2

/-- A login of which no statement fails, whatever failed before it. -/
theorem saveLogin_calm (he : e.Calm) (hcrypto : crypto.Correct)
    (hinstall : InstallOk v.install) (hkey : KeyOk crypto v uid) {b : Bool} {dbs : UserDbs}
    (hb : loadBootstrapCompleted uid e v = (.ok b, { v with dbs := dbs }))
    (login : LoginResult) :
    ∃ install kv key blob,
      saveLogin crypto uid login e v = (.ok .unit, {
        install := install
        accounts := savedAccounts v.accounts e.now uid
        accountKv := Function.update v.accountKv uid (savedKv kv e.now uid login b blob)
        dbs := dbs.clearLegacy uid
        currentUser := some uid }) ∧
      InstallOk install ∧ ((∃ st, Complete v.install st) → install = v.install) ∧
      HoldsKey crypto install uid kv key ∧
      decryptUserBlob crypto uid "access_token" key blob.1 blob.2 =
        .ok (utf8 login.token) := by
  obtain ⟨st, install, hrun, hst, hkeep⟩ := getInstallState_calm
    (v := { v with dbs := dbs }) he hinstall
  have hkey' : KeyOk crypto { v with dbs := dbs, install := install } uid := by
    refine hkey.imp_right ?_
    rintro ⟨key, hholds⟩
    have hsame : install = v.install := by
      obtain ⟨st', _, _, hst', _, _, _⟩ := hholds
      exact hkeep ⟨st', hst'⟩
    exact ⟨key, hsame ▸ hholds⟩
  obtain ⟨key, kv, hmaster, hholds⟩ := hkey'.getOrCreateMasterKey he hcrypto hst
  obtain ⟨blob, hblob, hdecrypt⟩ := encryptUserBlob_calm
    (v := Vault.withKv { v with dbs := dbs, install := install } uid kv)
    (e := e) hcrypto uid "access_token" key (utf8 login.token)
  refine ⟨install, kv, key, blob, ?_, hst.installOk, hkeep, hholds, hdecrypt⟩
  unfold saveLogin saveCurrentUid
  simp only [Exec.bind_run, hb, hrun, hmaster, hblob, saveAccountKv_calm he,
    saveAccountEntry_calm he, clearLegacySession_calm he, stmt_calm he,
    Vault.withKv_withKv, Vault.withKv_accountKv]
  simp only [Vault.withKv]

theorem StandsFor.keyOk {a : Account}
    (h : StandsFor crypto v.install uid (v.accountKv uid) a) : KeyOk crypto v uid := by
  cases hkey : a.hasKey with
  | true =>
      obtain ⟨key, hholds, _⟩ := h.key hkey
      exact .inr ⟨key, hholds⟩
  | false => exact .inl (h.noKey hkey).2

theorem Refines.saveLogin (h : Refines crypto v r) (he : e.Calm) (hcrypto : crypto.Correct)
    (uid : String) (login : LoginResult) :
    ∃ v', saveLogin crypto uid login e v = (.ok .unit, v') ∧
      Refines crypto v' (r.saveLogin e.now uid login) := by
  obtain ⟨install, kv, key, blob, hrun, hinstall, hkeep, hholds, hdecrypt⟩ :=
    saveLogin_calm he hcrypto h.install (h.account uid).keyOk
      (h.loadBootstrapCompleted he uid) login
  have hstands := standsFor_savedKv hholds hdecrypt (r.account uid)
    (r.bootstrapCompleted uid) e.now
    (some (((r.account uid).login.map Prod.fst).getD e.now, e.now))
  exact ⟨_, hrun, {
    install := hinstall
    account := h.set_account hkeep hstands
    column := h.savedAccounts e.now login uid
    active := savedAccounts_activeUid v.accounts e.now uid
    dbs := r.clearLegacy_loadBootstrapCompleted uid
    currentUser := rfl }⟩

end Writers

end Accounts
end PrivchatSdk
