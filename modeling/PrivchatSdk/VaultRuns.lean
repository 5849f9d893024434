import PrivchatSdk.AccountRegistry

/-!
# Runs of the account vault

Each call that succeeds does to the registry what its name says; together they carry the
abstraction over every run of calls (`vault_refines`).  What the readers answer, and the
list of the accounts, is then read off the registry.
-/

namespace PrivchatSdk
namespace Accounts

open StatementExec
open EventRun

section Calls

variable {crypto : VaultCrypto} {e : VaultEnv} {v : Vault} {r : Registry}

/-- A change of one key that the registry takes over. -/
theorem Refines.set_kv (h : Refines crypto v r) {uid : String}
    {kv : AccountKey → Option KvValue} {a : Account}
    (ha : StandsFor crypto v.install uid kv a)
    (hcolumn : ∀ c, (r.account uid).column c = a.column c) :
    Refines crypto (v.withKv uid kv) (r.set uid a) where
  install := h.install
  account := h.set_account (fun _ => rfl) ha
  column := h.set_column hcolumn
  active := h.active
  dbs := h.dbs
  currentUser := h.currentUser

theorem HoldsKey.congr {install : InstallKey → Option KvValue} {uid : String}
    {kv kv' : AccountKey → Option KvValue} {key : Bytes}
    (h : HoldsKey crypto install uid kv key)
    (hwrapped : kv' .masterKeyWrapped = kv .masterKeyWrapped)
    (hnonce : kv' .masterKeyNonce = kv .masterKeyNonce) :
    HoldsKey crypto install uid kv' key := by
  obtain ⟨st, wrapped, nonce, hst, hw, hn, hunwrap⟩ := h
  exact ⟨st, wrapped, nonce, hst, hwrapped.trans hw, hnonce.trans hn, hunwrap⟩

theorem HoldsToken.congr {uid token : String} {kv kv' : AccountKey → Option KvValue}
    {key : Bytes} (h : HoldsToken crypto uid kv key token)
    (henc : kv' .accessTokenEnc = kv .accessTokenEnc)
    (hnonce : kv' .accessTokenNonce = kv .accessTokenNonce) :
    HoldsToken crypto uid kv' key token := by
  obtain ⟨ciphertext, nonce, he, hn, hdecrypt⟩ := h
  exact ⟨ciphertext, nonce, henc.trans he, hnonce.trans hn, hdecrypt⟩

theorem Refines.setBootstrapCompleted (h : Refines crypto v r) (he : e.Calm) (uid : String)
    (completed : Bool) :
    ∃ v', setBootstrapCompleted uid completed e v = (.ok .unit, v') ∧
      Refines crypto v' (r.setBootstrapCompleted uid completed) := by
  refine ⟨v.setKey uid .bootstrapCompleted (some (boolI32 completed)), ?_, ?_⟩
  · unfold Accounts.setBootstrapCompleted
    simp only [Exec.bind_run, touch_calm he, insertKey_calm he]
  · have ha := h.account uid
    refine h.set_kv ⟨?_, ?_, ?_, ha.tokenKey, ?_, ?_, ?_⟩ ?_
    · intro hkey
      obtain ⟨key, hholds, htokens⟩ := ha.key hkey
      refine ⟨key, hholds.congr (by simp) (by simp), ?_⟩
      exact fun token htoken => (htokens token htoken).congr (by simp) (by simp)
    · intro hkey
      simpa using ha.noKey hkey
    · intro htoken
      simpa using ha.noToken htoken
    · simpa using ha.device
    · simpa using ha.profile
    · simp
    · intro c
      cases c <;> rfl

theorem Refines.clearActiveUid (h : Refines crypto v r) (he : e.Calm)
    (context uid : String) (flush : VaultM PUnit)
    (hflush : ∀ w, flush e w = (.ok .unit, w)) :
    clearActiveUid context uid flush e v =
      (.ok .unit, { v with
        accounts := if r.activeUid = some uid then v.accounts.erase kActiveUid
          else v.accounts }) := by
  unfold Accounts.clearActiveUid
  simp only [Exec.bind_run, stmt_calm he, ofExcept_run, h.active, getString_text]
  by_cases hactive : r.activeUid = some uid
  · simp only [if_pos hactive, Exec.bind_run, removeAccount_calm he, hflush]
  · simp only [if_neg hactive, Exec.pure_run]

/-- The accounts tree without the active uid, if it is this one. -/
theorem Refines.clearActive (h : Refines crypto v r) (uid : String) :
    Refines crypto
      { v with
        accounts := if r.activeUid = some uid then v.accounts.erase kActiveUid
          else v.accounts } (r.clearActive uid) := by
  unfold Registry.clearActive
  by_cases hactive : r.activeUid = some uid
  · rw [if_pos hactive, if_pos hactive]
    refine ⟨h.install, h.account, ?_, AList.lookup_erase _ _, h.dbs, h.currentUser⟩
    intro c u
    exact (AList.lookup_erase_ne (accountKey_ne_activeUid c u)).trans (h.column c u)
  · rw [if_neg hactive, if_neg hactive]
    exact h

theorem Refines.clearLegacy (h : Refines crypto v r) (uid : String) :
    Refines crypto { v with dbs := v.dbs.clearLegacy uid } (r.clearLegacy uid) where
  install := h.install
  account := h.account
  column := h.column
  active := h.active
  dbs := congrArg (fun d => UserDbs.clearLegacy d uid) h.dbs
  currentUser := h.currentUser

/-- The store of an account behind a logout. -/
theorem Refines.clearToken (h : Refines crypto v r) (uid : String) :
    Refines crypto
      (v.withKv uid (Function.update (Function.update (Function.update (Function.update
        (v.accountKv uid) .accessTokenEnc none) .accessTokenNonce none)
        .deviceIdCurrent none) .tokenExpireAt none))
      (r.set uid { r.account uid with token := none, deviceId := none }) := by
  have ha := h.account uid
  refine h.set_kv ⟨?_, ?_, ?_, ?_, ?_, ?_, ?_⟩ ?_
  · intro hkey
    obtain ⟨key, hholds, _⟩ := ha.key hkey
    exact ⟨key, hholds.congr (by simp) (by simp), nofun⟩
  · intro hkey
    simpa using ha.noKey hkey
  · simp
  · exact fun hne => absurd rfl hne
  · simp
  · rcases ha.profile with hprofile | ⟨hprofile, _⟩
    · exact .inl (by simpa using hprofile)
    · exact .inr ⟨by simpa using hprofile, rfl⟩
  · simpa using ha.watermark
  · intro c
    cases c <;> rfl

theorem Refines.clearSession (h : Refines crypto v r) (he : e.Calm) (uid : String) :
    ∃ v', clearSession uid e v = (.ok .unit, v') ∧
      Refines crypto v' (r.clearSession uid) := by
  have htoken := h.clearToken uid
  refine ⟨_, ?_, (htoken.clearActive uid).clearLegacy uid⟩
  unfold Accounts.clearSession
  simp only [Exec.bind_run, touch_calm he, removeKey_calm he, Vault.setKey,
    Vault.withKv_withKv, Vault.withKv_accountKv,
    htoken.clearActiveUid he "clear active uid" uid _ (touch_calm he _),
    clearLegacySession_calm he]

/-- What an exchange of the token leaves in the account's own store. -/
def tokenKv (kv : AccountKey → Option KvValue) (blob : Bytes × Bytes)
    (expiresAt : Option Nat) : AccountKey → Option KvValue
  | .accessTokenAlg => some (.text "AES-256-GCM")
  | .accessTokenEnc => some (.bytes blob.1)
  | .accessTokenNonce => some (.bytes blob.2)
  | .tokenExpireAt => (expiresAt.map (fun t => .i64 (clampI64 t))).or (kv .tokenExpireAt)
  | key => kv key

theorem Vault.applyTokenBatch_eq (v : Vault) (uid : String) (blob : Bytes × Bytes)
    (expiresAt : Option Nat) :
    v.applyTokenBatch uid blob expiresAt =
      v.withKv uid (tokenKv (v.accountKv uid) blob expiresAt) := by
  unfold Vault.applyTokenBatch
  cases expiresAt with
  | none =>
      simp only [Vault.setKey, Vault.withKv_withKv, Vault.withKv_accountKv]
      congr 1
      funext k
      cases k <;> simp [tokenKv]
  | some t =>
      simp only [Vault.setKey, Vault.withKv_withKv, Vault.withKv_accountKv]
      congr 1
      funext k
      cases k <;> simp [tokenKv]

theorem standsFor_tokenKv {uid token : String} {key : Bytes} {blob : Bytes × Bytes}
    {kv : AccountKey → Option KvValue} {a : Account}
    {install : InstallKey → Option KvValue}
    (hholds : HoldsKey crypto install uid kv key)
    (hblob : decryptUserBlob crypto uid "access_token" key blob.1 blob.2 =
      .ok (utf8 token)) (ha : StandsFor crypto install uid kv a) (hkey : a.hasKey = true)
    (expiresAt : Option Nat) :
    StandsFor crypto install uid (tokenKv kv blob expiresAt)
      { a with token := some token } := by
  refine ⟨?_, ?_, nofun, fun _ => hkey, ha.device, ha.profile, ha.watermark⟩
  · intro _
    refine ⟨key, hholds.congr rfl rfl, ?_⟩
    intro token' htoken
    obtain rfl := Option.some.inj htoken
    exact ⟨blob.1, blob.2, rfl, rfl, hblob⟩
  · intro hnone
    exact Bool.noConfusion (hkey.symm.trans hnone)

/-- The token of an account is exchanged, if the account has a master key. -/
theorem Refines.updateAccessToken (h : Refines crypto v r) (he : e.Calm)
    (hcrypto : crypto.Correct) (uid token : String) (expiresAt : Option Nat) :
    ∃ v', updateAccessToken crypto uid token expiresAt e v =
        (if (r.account uid).hasKey then .ok .unit
          else .error (badValue "master key not initialized"), v') ∧
      Refines crypto v' (r.updateAccessToken uid token) := by
  have ha := h.account uid
  unfold Registry.updateAccessToken
  cases hkey : (r.account uid).hasKey with
  | false =>
      obtain ⟨install, hrun, hinstall, hkeep⟩ :=
        loadMasterKey_none crypto he h.install (ha.noKey hkey).2
      refine ⟨{ v with install := install }, ?_, ?_⟩
      · unfold Accounts.updateAccessToken
        simp only [Exec.bind_run, hrun, (ha.noKey hkey).1]
        rfl
      · exact {
          install := hinstall
          account := fun u => (h.account u).keep_install hkeep
          column := h.column
          active := h.active
          dbs := h.dbs
          currentUser := h.currentUser }
  | true =>
      obtain ⟨key, hholds, _⟩ := ha.key hkey
      obtain ⟨blob, hblob, hdecrypt⟩ := encryptUserBlob_calm (v := v) (e := e) hcrypto uid
        "access_token" key (utf8 token)
      refine ⟨v.applyTokenBatch uid blob expiresAt, ?_, ?_⟩
      · unfold Accounts.updateAccessToken
        simp only [Exec.bind_run, loadMasterKey_holds he hholds, hblob, touch_calm he,
          stmt_calm he, if_true]
      · rw [if_pos rfl, v.applyTokenBatch_eq]
        exact h.set_kv (standsFor_tokenKv hholds hdecrypt ha hkey expiresAt)
          (fun c => by cases c <;> rfl)

def AccountColumn.IsText : AccountColumn → Prop
  | .lastLoginAt => False
  | .createdAt => False
  | _ => True

theorem Account.column_setText (a : Account) (text : String) {c : AccountColumn}
    (hc : c.IsText) : (a.setText text c).column c = some (.text text) := by
  cases c with
  | lastLoginAt => exact hc.elim
  | createdAt => exact hc.elim
  | displayName => rfl
  | username => rfl
  | loginMode => rfl
  | loginIdentifier => rfl

theorem Account.column_setText_of_ne (a : Account) (text : String) {c c' : AccountColumn}
    (h : c' ≠ c) : (a.setText text c).column c' = a.column c' := by
  revert h
  cases c <;> cases c' <;> simp [Account.setText, Account.column]

theorem StandsFor.setText {install : InstallKey → Option KvValue} {uid : String}
    {kv : AccountKey → Option KvValue} {a : Account}
    (h : StandsFor crypto install uid kv a) (text : String) (c : AccountColumn) :
    StandsFor crypto install uid kv (a.setText text c) := by
  cases c with
  | lastLoginAt => exact h
  | createdAt => exact h
  | displayName =>
      exact ⟨h.key, h.noKey, h.noToken, h.tokenKey, h.device, h.profile, h.watermark⟩
  | username =>
      exact ⟨h.key, h.noKey, h.noToken, h.tokenKey, h.device, h.profile, h.watermark⟩
  | loginMode =>
      exact ⟨h.key, h.noKey, h.noToken, h.tokenKey, h.device, h.profile, h.watermark⟩
  | loginIdentifier =>
      exact ⟨h.key, h.noKey, h.noToken, h.tokenKey, h.device, h.profile, h.watermark⟩

theorem Refines.saveAccountText (h : Refines crypto v r) (he : e.Calm) (uid : String)
    {c : AccountColumn} (hc : c.IsText) (value : Option String) :
    ∃ v', saveAccountText (accountKey c uid) value e v = (.ok .unit, v') ∧
      Refines crypto v' (r.setText uid c value) := by
  unfold Accounts.saveAccountText Registry.setText nonBlank
  cases (value.map trim).filter (fun v => v != "") with
  | none => exact ⟨v, rfl, h⟩
  | some text =>
      refine ⟨_, insertAccount_calm he _ _ _ v, h.install, ?_, ?_, ?_, h.dbs, h.currentUser⟩
      · intro u
        have hset := h.set_account (fun _ => rfl) ((h.account uid).setText text c) u
        rwa [Vault.withKv_self] at hset
      · intro c' u
        by_cases hkey : accountKey c' u = accountKey c uid
        · obtain ⟨rfl, rfl⟩ := accountKey_inj c' c hkey
          rw [Registry.set_account, Account.column_setText _ _ hc]
          exact AList.lookup_insert _
        · refine (AList.lookup_insert_ne hkey).trans ((h.column c' u).trans ?_)
          by_cases hu : u = uid
          · subst hu
            rw [Registry.set_account, Account.column_setText_of_ne]
            exact fun hcc => hkey (by rw [hcc])
          · rw [Registry.set_account_of_ne r hu]
      · exact (AList.lookup_insert_ne (accountKey_ne_activeUid c uid).symm).trans h.active

theorem Refines.saveAccountDisplayName (h : Refines crypto v r) (he : e.Calm) (uid : String)
    (displayName username loginMode loginIdentifier : Option String) :
    ∃ v', saveAccountDisplayName uid displayName username loginMode loginIdentifier e v =
        (.ok .unit, v') ∧
      Refines crypto v' (r.saveAccountDisplayName uid displayName username loginMode
        loginIdentifier) := by
  obtain ⟨v₁, hrun₁, h₁⟩ :=
    h.saveAccountText he uid (c := .displayName) trivial displayName
  obtain ⟨v₂, hrun₂, h₂⟩ := h₁.saveAccountText he uid (c := .username) trivial username
  obtain ⟨v₃, hrun₃, h₃⟩ := h₂.saveAccountText he uid (c := .loginMode) trivial loginMode
  obtain ⟨v₄, hrun₄, h₄⟩ :=
    h₃.saveAccountText he uid (c := .loginIdentifier) trivial loginIdentifier
  refine ⟨v₄, ?_, h₄⟩
  simp only [accountKey] at hrun₁ hrun₂ hrun₃ hrun₄
  unfold Accounts.saveAccountDisplayName
  simp only [Exec.bind_run, touch_calm he, hrun₁, hrun₂, hrun₃, hrun₄]

theorem Refines.loadCurrentUid (h : Refines crypto v r) (he : e.Calm) :
    loadCurrentUid e v = (.ok r.currentUid, v) := by
  unfold Accounts.loadCurrentUid
  simp only [Exec.bind_run, stmt_calm he, h.currentUser, Exec.pure_run]
  rfl

theorem Refines.saveCurrentUid (h : Refines crypto v r) (he : e.Calm) (uid : String) :
    ∃ v', saveCurrentUid uid e v = (.ok .unit, v') ∧
      Refines crypto v' { r with currentUser := some uid } :=
  ⟨_, stmt_calm he _ _ v, ⟨h.install, h.account, h.column, h.active, h.dbs, rfl⟩⟩

theorem Refines.clearCurrentUid (h : Refines crypto v r) (he : e.Calm) :
    ∃ v', clearCurrentUid e v = (.ok .unit, v') ∧
      Refines crypto v' { r with currentUser := none } :=
  ⟨_, stmt_calm he _ _ v, ⟨h.install, h.account, h.column, h.active, h.dbs, rfl⟩⟩

/-- The accounts tree without the login times of an account. -/
def erasedAccounts (accounts : AList (fun _ : String => KvValue)) (uid : String) :
    AList (fun _ : String => KvValue) :=
  (accounts.erase (kAcctLastLogin uid)).erase (kAcctCreatedAt uid)

theorem erasedAccounts_of_ne (accounts : AList (fun _ : String => KvValue))
    {uid key : String} (hlogin : key ≠ kAcctLastLogin uid)
    (hcreated : key ≠ kAcctCreatedAt uid) :
    (erasedAccounts accounts uid).lookup key = accounts.lookup key := by
  unfold erasedAccounts
  rw [AList.lookup_erase_ne hcreated, AList.lookup_erase_ne hlogin]

theorem Refines.erasedAccounts (h : Refines crypto v r) (uid : String) (c : AccountColumn)
    (u : String) :
    (erasedAccounts v.accounts uid).lookup (accountKey c u) =
      ((r.set uid (r.account uid).wiped).account u).column c := by
  have hother : c ≠ .lastLoginAt ∧ c ≠ .createdAt ∨ u ≠ uid →
      (Accounts.erasedAccounts v.accounts uid).lookup (accountKey c u) =
        (r.account u).column c := by
    intro hne
    refine (erasedAccounts_of_ne v.accounts ?_ ?_).trans (h.column c u)
    · intro heq
      obtain ⟨hc, hu⟩ := accountKey_inj c .lastLoginAt heq
      exact hne.elim (fun hcc => hcc.1 hc) (fun huu => huu hu)
    · intro heq
      obtain ⟨hc, hu⟩ := accountKey_inj c .createdAt heq
      exact hne.elim (fun hcc => hcc.2 hc) (fun huu => huu hu)
  by_cases hu : u = uid
  · subst hu
    rw [Registry.set_account]
    cases c with
    | lastLoginAt =>
        have hkeys : kAcctLastLogin u ≠ kAcctCreatedAt u := by
          intro heq
          exact absurd (accountKey_inj .lastLoginAt .createdAt heq).1 (by decide)
        exact (AList.lookup_erase_ne hkeys).trans (AList.lookup_erase _ _)
    | createdAt => exact AList.lookup_erase _ _
    | displayName => exact hother (.inl ⟨by decide, by decide⟩)
    | username => exact hother (.inl ⟨by decide, by decide⟩)
    | loginMode => exact hother (.inl ⟨by decide, by decide⟩)
    | loginIdentifier => exact hother (.inl ⟨by decide, by decide⟩)
  · rw [Registry.set_account_of_ne r hu]
    exact hother (.inr hu)

/-- The stores of an account without its files and its login times. -/
theorem Refines.removeUserDir (h : Refines crypto v r) (uid : String) :
    Refines crypto
      { v.removeUserDir uid with accounts := Accounts.erasedAccounts v.accounts uid }
      { r.set uid (r.account uid).wiped with dbs := r.dbs.remove uid } where
  install := h.install
  account := h.set_account (fun _ => rfl) {
    key := Bool.noConfusion
    noKey := fun _ => ⟨rfl, rfl⟩
    noToken := fun _ => ⟨rfl, rfl⟩
    tokenKey := fun hne => absurd rfl hne
    device := rfl
    profile := .inr ⟨rfl, rfl⟩
    watermark := rfl }
  column := h.erasedAccounts uid
  active := by
    have hlogin : kActiveUid ≠ kAcctLastLogin uid :=
      (accountKey_ne_activeUid .lastLoginAt uid).symm
    have hcreated : kActiveUid ≠ kAcctCreatedAt uid :=
      (accountKey_ne_activeUid .createdAt uid).symm
    exact (erasedAccounts_of_ne v.accounts hlogin hcreated).trans h.active
  dbs := congrArg (fun d => UserDbs.remove d uid) h.dbs
  currentUser := h.currentUser

theorem Refines.wipeUserFull (h : Refines crypto v r) (he : e.Calm) (uid : String) :
    ∃ v', wipeUserFull uid e v = (.ok .unit, v') ∧ Refines crypto v' (r.wipe uid) := by
  have hremoved := h.removeUserDir uid
  have hrun := hremoved.clearActiveUid he "remove active uid" uid (pure .unit)
    (fun _ => rfl)
  have hclear := hremoved.clearActive uid
  have hcurrent := hclear.loadCurrentUid he
  simp only [Accounts.erasedAccounts] at hrun hcurrent hclear
  unfold Accounts.wipeUserFull Registry.wipe
  simp only [Exec.bind_run, stmt_calm he, touch_calm he, removeAccount_calm he]
  rw [show (v.removeUserDir uid).accounts = v.accounts from rfl, hrun]
  simp only [hcurrent]
  split
  · exact hclear.clearCurrentUid he
  · exact ⟨_, rfl, hclear⟩

/-- A load takes an older version's session over. -/
theorem Refines.loadSession (h : Refines crypto v r) (he : e.Calm) (hcrypto : crypto.Correct)
    (uid : String) :
    ∃ v', loadSession crypto uid e v = (r.session uid, v') ∧
      Refines crypto v' (r.loadSession e.now uid) := by
  have hload : loadSessionFromAccount crypto uid e v = (r.ownSession uid, v) :=
    (h.account uid).loadSessionFromAccount he
  have hseen : (v.dbs.seen uid).authSession = r.legacy uid := by
    rw [h.dbs]
    rfl
  unfold Accounts.loadSession Registry.session Registry.loadSession
  simp only [Exec.bind_run, hload]
  cases hown : r.ownSession uid with
  | error err => exact ⟨v, rfl, h⟩
  | ok own =>
      cases own with
      | some snapshot => exact ⟨v, rfl, h⟩
      | none =>
          have hconn : Refines crypto { v with dbs := v.dbs.connect uid }
              { r with dbs := r.dbs.connect uid } :=
            ⟨h.install, h.account, h.column, h.active,
              congrArg (fun d => UserDbs.connect d uid) h.dbs, h.currentUser⟩
          simp only [Exec.bind_run, loadLegacySession_calm he, hseen]
          cases hlegacy : r.legacy uid with
          | none => exact ⟨_, rfl, hconn⟩
          | some legacy =>
              obtain ⟨v₁, hrun₁, h₁⟩ := hconn.saveLogin he hcrypto uid
                { token := legacy.token, deviceId := legacy.deviceId, expiresAt := 0 }
              obtain ⟨v₂, hrun₂, h₂⟩ :=
                h₁.setBootstrapCompleted he uid legacy.bootstrapCompleted
              refine ⟨v₂, ?_, h₂⟩
              simp only [Exec.bind_run, hrun₁, hrun₂, Exec.pure_run]

end Calls

section Runs

variable (crypto : VaultCrypto)

/--
The calls on the vault, any other call on a database, and a new process.  `tables` is
also what `ensure_user_storage` writes when it moves an older version's queues into the
outbox, at the first call for the account in a process.
-/
inductive VaultOp where
  | saveLogin (uid : String) (login : LoginResult)
  | setBootstrapCompleted (uid : String) (completed : Bool)
  | loadSession (uid : String)
  | loadAccessToken (uid : String)
  | loadBootstrapCompleted (uid : String)
  | clearSession (uid : String)
  | updateAccessToken (uid token : String) (expiresAt : Option Nat)
  | saveCurrentUid (uid : String)
  | clearCurrentUid
  | saveAccountDisplayName (uid : String)
      (displayName username loginMode loginIdentifier : Option String)
  | wipeUserFull (uid : String)
  | tables (uid : String) (f : Store → Store)
  | restart

/-- A call that works on the tables of an account. -/
def withTables (uid : String) (f : Store → Store) : VaultM PUnit :=
  withConn "statement" uid (fun db => (.unit, { db with tables := f db.tables }))

/--
One call.  A process ends in order: what it wrote to the key-value stores is flushed (of
a process that is killed the writes of the last half second can be missing).
-/
def vaultStep (v : Vault) : VaultOp × VaultEnv → Vault
  | (.saveLogin uid login, e) => (saveLogin crypto uid login).after e v
  | (.setBootstrapCompleted uid completed, e) =>
      (setBootstrapCompleted uid completed).after e v
  | (.loadSession uid, e) => (loadSession crypto uid).after e v
  | (.loadAccessToken uid, e) => (loadAccessToken crypto uid).after e v
  | (.loadBootstrapCompleted uid, e) => (loadBootstrapCompleted uid).after e v
  | (.clearSession uid, e) => (clearSession uid).after e v
  | (.updateAccessToken uid token expiresAt, e) =>
      (updateAccessToken crypto uid token expiresAt).after e v
  | (.saveCurrentUid uid, e) => (saveCurrentUid uid).after e v
  | (.clearCurrentUid, e) => clearCurrentUid.after e v
  | (.saveAccountDisplayName uid displayName username loginMode loginIdentifier, e) =>
      (saveAccountDisplayName uid displayName username loginMode loginIdentifier).after e v
  | (.wipeUserFull uid, e) => (wipeUserFull uid).after e v
  | (.tables uid f, e) => (withTables uid f).after e v
  | (.restart, _) => { v with dbs := v.dbs.restart }

def Registry.withTables (r : Registry) (uid : String) (f : Store → Store) : Registry :=
  let db := r.dbs.seen uid
  { r with dbs := (r.dbs.connect uid).write uid { db with tables := f db.tables } }

/-- What the calls do to the registry. -/
def registryStep (r : Registry) : VaultOp × VaultEnv → Registry
  | (.saveLogin uid login, e) => r.saveLogin e.now uid login
  | (.setBootstrapCompleted uid completed, _) => r.setBootstrapCompleted uid completed
  | (.loadSession uid, e) => r.loadSession e.now uid
  | (.loadAccessToken _, _) => r
  | (.loadBootstrapCompleted uid, _) => r.loadBootstrapCompleted uid
  | (.clearSession uid, _) => r.clearSession uid
  | (.updateAccessToken uid token _, _) => r.updateAccessToken uid token
  | (.saveCurrentUid uid, _) => { r with currentUser := some uid }
  | (.clearCurrentUid, _) => { r with currentUser := none }
  | (.saveAccountDisplayName uid displayName username loginMode loginIdentifier, _) =>
      r.saveAccountDisplayName uid displayName username loginMode loginIdentifier
  | (.wipeUserFull uid, _) => r.wipe uid
  | (.tables uid f, _) => r.withTables uid f
  | (.restart, _) => { r with dbs := r.dbs.restart }

variable {crypto} {v : Vault} {r : Registry}

theorem Refines.setDbs (h : Refines crypto v r) (f : UserDbs → UserDbs) :
    Refines crypto { v with dbs := f v.dbs } { r with dbs := f r.dbs } :=
  ⟨h.install, h.account, h.column, h.active, congrArg f h.dbs, h.currentUser⟩

/-- The state after a run of a call whose result is known. -/
theorem Refines.of_run {α : Type} {x : VaultM α} {e : VaultEnv} {res : Except StoreError α}
    {v' : Vault} (h : Refines crypto v' r) (hrun : x e v = (res, v')) :
    Refines crypto (x.after e v) r := by
  unfold Exec.after
  rwa [hrun]

/-- A read of the watermark may open the database. -/
theorem Refines.loadBootstrapCompleted_step {e : VaultEnv} (h : Refines crypto v r)
    (he : e.Calm) (uid : String) :
    ∃ v', Accounts.loadBootstrapCompleted uid e v = (.ok (r.bootstrapCompleted uid), v') ∧
      Refines crypto v' (r.loadBootstrapCompleted uid) := by
  refine ⟨_, h.loadBootstrapCompleted he uid, ?_⟩
  unfold Registry.loadBootstrapCompleted
  cases (r.account uid).watermark with
  | some b => exact ⟨h.install, h.account, h.column, h.active, rfl, h.currentUser⟩
  | none => exact ⟨h.install, h.account, h.column, h.active, rfl, h.currentUser⟩

theorem Refines.step (h : Refines crypto v r) (hcrypto : crypto.Correct)
    (ev : VaultOp × VaultEnv) (he : ev.2.Calm) :
    Refines crypto (vaultStep crypto v ev) (registryStep r ev) := by
  obtain ⟨op, e⟩ := ev
  cases op with
  | saveLogin uid login =>
      obtain ⟨v', hrun, h'⟩ := h.saveLogin he hcrypto uid login
      exact h'.of_run hrun
  | setBootstrapCompleted uid completed =>
      obtain ⟨v', hrun, h'⟩ := h.setBootstrapCompleted he uid completed
      exact h'.of_run hrun
  | loadSession uid =>
      obtain ⟨v', hrun, h'⟩ := h.loadSession he hcrypto uid
      exact h'.of_run hrun
  | loadAccessToken uid =>
      exact h.of_run ((h.account uid).loadAccessToken he)
  | loadBootstrapCompleted uid =>
      obtain ⟨v', hrun, h'⟩ := h.loadBootstrapCompleted_step he uid
      exact h'.of_run hrun
  | clearSession uid =>
      obtain ⟨v', hrun, h'⟩ := h.clearSession he uid
      exact h'.of_run hrun
  | updateAccessToken uid token expiresAt =>
      obtain ⟨v', hrun, h'⟩ := h.updateAccessToken he hcrypto uid token expiresAt
      exact h'.of_run hrun
  | saveCurrentUid uid =>
      obtain ⟨v', hrun, h'⟩ := h.saveCurrentUid he uid
      exact h'.of_run hrun
  | clearCurrentUid =>
      obtain ⟨v', hrun, h'⟩ := h.clearCurrentUid he
      exact h'.of_run hrun
  | saveAccountDisplayName uid displayName username loginMode loginIdentifier =>
      obtain ⟨v', hrun, h'⟩ := h.saveAccountDisplayName he uid displayName username
        loginMode loginIdentifier
      exact h'.of_run hrun
  | wipeUserFull uid =>
      obtain ⟨v', hrun, h'⟩ := h.wipeUserFull he uid
      exact h'.of_run hrun
  | tables uid f =>
      have h' := h.setDbs (fun d => (d.connect uid).write uid
        { d.seen uid with tables := f (d.seen uid).tables })
      exact h'.of_run (withConn_calm he "statement" uid
        (fun db => (PUnit.unit, { db with tables := f db.tables })) v)
  | restart => exact h.setDbs UserDbs.restart

theorem refines_run (hcrypto : crypto.Correct) (file : String → UserDb)
    (events : List (VaultOp × VaultEnv)) (hcalm : ∀ ev ∈ events, ev.2.Calm) :
    Refines crypto (run (vaultStep crypto) (Vault.start file) events)
      (run registryStep (Registry.start file) events) :=
  run_related (Refines crypto) (fun ev => ev.2.Calm)
    (fun _ _ ev he h => h.step hcrypto ev he) (refines_start crypto file) hcalm

/--
After every run of calls of which no statement fails, the vault answers what the
registry says: what was last saved, exchanged or cleared for the account, whatever was
done for other accounts in between.
-/
theorem vault_refines (hcrypto : crypto.Correct) (file : String → UserDb)
    (events : List (VaultOp × VaultEnv)) (hcalm : ∀ ev ∈ events, ev.2.Calm)
    (uid : String) (e : VaultEnv) (he : e.Calm) :
    let v := run (vaultStep crypto) (Vault.start file) events
    let r := run registryStep (Registry.start file) events
    (loadSession crypto uid e v).1 = r.session uid ∧
      (loadAccessToken crypto uid e v).1 = .ok (r.account uid).token ∧
      (loadBootstrapCompleted uid e v).1 = .ok (r.bootstrapCompleted uid) ∧
      (loadCurrentUid e v).1 = .ok r.currentUid ∧
      v.dbs.seen uid = r.dbs.seen uid := by
  intro v r
  have h : Refines crypto v r := refines_run hcrypto file events hcalm
  obtain ⟨v', hsession, _⟩ := h.loadSession he hcrypto uid
  refine ⟨?_, ?_, ?_, ?_, ?_⟩
  · rw [hsession]
  · rw [(h.account uid).loadAccessToken he]
  · rw [h.loadBootstrapCompleted he]
  · rw [h.loadCurrentUid he]
  · rw [h.dbs]

/-- A cipher that leaves the text readable and puts a tag of 16 bytes behind it. -/
def openCrypto : VaultCrypto where
  hkdf := fun _ secret _ => secret
  encrypt := fun _ _ plain _ => some (plain ++ List.replicate 16 0)
  decrypt := fun _ _ ciphertext _ => ciphertext.dropSuffix? (List.replicate 16 0)

theorem openCrypto_correct : openCrypto.Correct where
  seals := fun _ _ _ _ => rfl
  opens := by
    intro key nonce plain aad ciphertext h
    obtain rfl := Option.some.inj h
    exact List.dropSuffix?_eq_some_iff.mpr ⟨_, rfl, beq_self_eq_true _⟩

def quietEnv (now : Int) : VaultEnv where
  now := now
  fault := fun _ => false
  masterKey := .replicate 32 7
  wrapNonce := .replicate 12 0
  tokenNonce := .replicate 12 1
  deviceId := "phone"
  installSecret := .replicate 32 9

theorem quietEnv_calm (now : Int) : (quietEnv now).Calm := by
  intro context
  rfl

/-- Two users log in, and the second one logs out. -/
def twoUsers : List (VaultOp × VaultEnv) :=
  [(.saveLogin "7" { token := "seven", deviceId := "a", expiresAt := 9 }, quietEnv 1),
    (.setBootstrapCompleted "7" true, quietEnv 2),
    (.saveLogin "8" { token := "eight", deviceId := "a", expiresAt := 9 }, quietEnv 3),
    (.clearSession "8", quietEnv 4), (.restart, quietEnv 5)]

theorem twoUsers_calm : ∀ ev ∈ twoUsers, ev.2.Calm := by
  unfold twoUsers
  simp only [List.forall_mem_cons]
  exact ⟨quietEnv_calm 1, quietEnv_calm 2, quietEnv_calm 3, quietEnv_calm 4,
    quietEnv_calm 5, nofun⟩

theorem vault_refines_two_users :
    let v := run (vaultStep openCrypto) (Vault.start (fun _ => UserDb.fresh)) twoUsers
    (loadSession openCrypto "7" (quietEnv 6) v).1 =
        .ok (some {
          userId := 7, token := "seven", deviceId := "a", bootstrapCompleted := true }) ∧
      (loadAccessToken openCrypto "8" (quietEnv 6) v).1 = .ok none := by
  intro v
  have h7 := vault_refines openCrypto_correct (fun _ => UserDb.fresh) twoUsers
    twoUsers_calm "7" (quietEnv 6) (quietEnv_calm 6)
  have h8 := vault_refines openCrypto_correct (fun _ => UserDb.fresh) twoUsers
    twoUsers_calm "8" (quietEnv 6) (quietEnv_calm 6)
  exact ⟨h7.1.trans rfl, h8.2.1.trans rfl⟩

end Runs

end Accounts
end PrivchatSdk
