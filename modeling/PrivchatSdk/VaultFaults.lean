import Mathlib.Logic.Relation
import PrivchatSdk.VaultRuns

/-!
# The account vault when statements fail

A call on the vault writes key after key, and a failure leaves what was written before.
`Change` lists what one statement of a call for an account can do, and `Changes` what a
call can do that stops anywhere.  From the list follow, for every run with any failures:
the stores keep the shape that a later login needs (`Sound`), a call touches no other
account (`Frame`), and what a logout leaves is there for the next login (`Survives`).
-/

namespace PrivchatSdk
namespace Accounts

open StatementExec
open EventRun

section Databases

/-- No session of an older version is left in the database of an account. -/
structure UserDbs.NoLegacy (d : UserDbs) (uid : String) : Prop where
  file : (d.file uid).authSession = none
  unlinked : ∀ db, d.conn uid = .unlinked db → db.authSession = none

/-- The database of an account was removed while its connection was open. -/
def UserDbs.Unlinked (d : UserDbs) (uid : String) : Prop :=
  ∃ db, d.conn uid = .unlinked db

/--
What the statements of a call do to the databases, but for the removal of one; `tables`
says how the account's own tables may change.
-/
structure DbChange (uid : String) (tables : Store → Store → Prop) (d d' : UserDbs) :
    Prop where
  other : ∀ u, u ≠ uid → d'.file u = d.file u ∧ d'.conn u = d.conn u
  noLegacy : d.NoLegacy uid → d'.NoLegacy uid
  tables : tables (d.seen uid).tables (d'.seen uid).tables
  unlinked : d'.Unlinked uid ↔ d.Unlinked uid
  file : d.Unlinked uid → d'.file uid = d.file uid
  closed : d'.conn uid = .closed → d.conn uid = .closed

variable (d : UserDbs) (uid : String)

theorem dbChange_refl {tables : Store → Store → Prop} (htables : ∀ s, tables s s) :
    DbChange uid tables d d where
  other := fun _ _ => ⟨rfl, rfl⟩
  noLegacy := fun h => h
  tables := htables _
  unlinked := Iff.rfl
  file := fun _ => rfl
  closed := fun h => h

theorem dbChange_connect {tables : Store → Store → Prop} (htables : ∀ s, tables s s) :
    DbChange uid tables d (d.connect uid) := by
  unfold UserDbs.connect
  cases hconn : d.conn uid with
  | attached => exact dbChange_refl d uid htables
  | unlinked db => exact dbChange_refl d uid htables
  | closed =>
      exact {
        other := fun u hu => ⟨rfl, Function.update_of_ne hu _ _⟩
        noLegacy := fun h => ⟨h.file, fun db hdb => by simp at hdb⟩
        tables := by simpa [UserDbs.seen, hconn] using htables (d.file uid).tables
        unlinked := by simp [UserDbs.Unlinked, hconn]
        file := fun _ => rfl
        closed := fun h => by simp at h }

/-- A write through the connection that keeps an empty session empty. -/
theorem dbChange_write {tables : Store → Store → Prop} (db : UserDb)
    (hlegacy : (d.seen uid).authSession = none → db.authSession = none)
    (htables : tables (d.seen uid).tables db.tables) :
    DbChange uid tables d (d.write uid db) := by
  have hseen : (d.write uid db).seen uid = db := d.seen_write_self uid db
  unfold UserDbs.write at hseen ⊢
  cases hconn : d.conn uid with
  | unlinked old =>
      rw [hconn] at hseen
      have hold : d.seen uid = old := by
        simp [UserDbs.seen, hconn]
      exact {
        other := fun u hu => ⟨rfl, Function.update_of_ne hu _ _⟩
        noLegacy := fun h => ⟨h.file, fun db' hdb => by
          obtain rfl : db = db' := by simpa using hdb
          exact hlegacy (hold ▸ h.unlinked old hconn)⟩
        tables := by rwa [hseen]
        unlinked := by simp [UserDbs.Unlinked, hconn]
        file := fun _ => rfl
        closed := fun h => by simp at h }
  | attached =>
      rw [hconn] at hseen
      have hold : d.seen uid = d.file uid := by
        simp [UserDbs.seen, hconn]
      exact {
        other := fun u hu => ⟨Function.update_of_ne hu _ _, rfl⟩
        noLegacy := fun h => ⟨by simpa using hlegacy (hold ▸ h.file), h.unlinked⟩
        tables := by rwa [hseen]
        unlinked := Iff.rfl
        file := by
          rintro ⟨db', hdb⟩
          simp [hconn] at hdb
        closed := fun h => h }
  | closed =>
      rw [hconn] at hseen
      have hold : d.seen uid = d.file uid := by
        simp [UserDbs.seen, hconn]
      exact {
        other := fun u hu => ⟨Function.update_of_ne hu _ _, rfl⟩
        noLegacy := fun h => ⟨by simpa using hlegacy (hold ▸ h.file), h.unlinked⟩
        tables := by rwa [hseen]
        unlinked := Iff.rfl
        file := by
          rintro ⟨db', hdb⟩
          simp [hconn] at hdb
        closed := fun h => h }

theorem UserDbs.remove_conn_of_ne {u : String} (hu : u ≠ uid) :
    (d.remove uid).conn u = d.conn u := by
  unfold UserDbs.remove
  cases hconn : d.conn uid with
  | attached => exact Function.update_of_ne hu _ _
  | unlinked db => rfl
  | closed => rfl

/-- A removal leaves an open connection with a file that has no name. -/
theorem UserDbs.remove_unlinked :
    (d.remove uid).Unlinked uid ↔ d.conn uid ≠ .closed := by
  unfold UserDbs.remove UserDbs.Unlinked
  cases hconn : d.conn uid with
  | attached => simp
  | unlinked db => simp [hconn]
  | closed => simp [hconn]

theorem UserDbs.restart_linked (u : String) : ¬ d.restart.Unlinked u := by
  rintro ⟨db, hdb⟩
  cases hdb

/-- What is seen of a database that was not removed is its file. -/
theorem UserDbs.seen_of_linked {d : UserDbs} {uid : String} (h : ¬ d.Unlinked uid) :
    d.seen uid = d.file uid := by
  unfold UserDbs.seen
  cases hconn : d.conn uid with
  | attached => rfl
  | unlinked db => exact (h ⟨db, hconn⟩).elim
  | closed => rfl

end Databases

section Change

variable (crypto : VaultCrypto)

/-- The values that may stand at a key, beside those of the keys with a rule of their own. -/
def PlainKey (uid : String) (value : Option KvValue) : AccountKey → Prop
  | .masterKeyWrapped => False
  | .masterKeyNonce => False
  | .bootstrapCompleted => False
  | .deviceIdCurrent => ∃ text : Option String, value = text.map KvValue.text
  | .uid => value = some (.text uid)
  | _ => True

/-- What a call may do beyond the statements that every call may have. -/
structure Licence where
  flag : Bool → Prop
  tables : Store → Store → Prop
  tables_refl : ∀ s, tables s s
  wipe : Prop

/-- What one statement of a call for an account can do to the vault. -/
inductive Change (uid : String) (licence : Licence) : Vault → Vault → Prop
  | install (v : Vault) (install : InstallKey → Option KvValue)
      (hkeep : ∀ st, Complete v.install st → Complete install st)
      (hid : install .deviceId = v.install .deviceId ∨
        ∃ id, install .deviceId = some (.text id))
      (hsecret : install .installSecret = v.install .installSecret ∨
        ∃ secret : Bytes, secret.length = 32 ∧
          install .installSecret = some (.bytes secret)) :
      Change uid licence v { v with install := install }
  | wrapKey (v : Vault) (wrapped : Bytes)
      (hnone : ¬ ∃ w n, v.accountKv uid .masterKeyWrapped = some (.bytes w) ∧
        v.accountKv uid .masterKeyNonce = some (.bytes n)) :
      Change uid licence v (v.setKey uid .masterKeyWrapped (some (.bytes wrapped)))
  | keyNonce (v : Vault) (nonce key : Bytes)
      (hholds : HoldsKey crypto v.install uid
        (Function.update (v.accountKv uid) .masterKeyNonce (some (.bytes nonce))) key) :
      Change uid licence v (v.setKey uid .masterKeyNonce (some (.bytes nonce)))
  | flag (v : Vault) (b : Bool) (hflag : licence.flag b) :
      Change uid licence v (v.setKey uid .bootstrapCompleted (some (boolI32 b)))
  | key (v : Vault) (key : AccountKey) (value : Option KvValue)
      (hplain : PlainKey uid value key) :
      Change uid licence v (v.setKey uid key value)
  | account (v : Vault) (accounts : AList (fun _ : String => KvValue))
      (hother : ∀ c u, u ≠ uid →
        accounts.lookup (accountKey c u) = v.accounts.lookup (accountKey c u))
      (hactive : accounts.lookup kActiveUid = v.accounts.lookup kActiveUid ∨
        ∃ text : Option String, accounts.lookup kActiveUid = text.map KvValue.text) :
      Change uid licence v { v with accounts := accounts }
  | dbs (v : Vault) (d : UserDbs) (hdbs : DbChange uid licence.tables v.dbs d) :
      Change uid licence v { v with dbs := d }
  | current (v : Vault) (currentUser : Option String) :
      Change uid licence v { v with currentUser := currentUser }
  | wipe (v : Vault) (hwipe : licence.wipe) :
      Change uid licence v (v.removeUserDir uid)

/-- What a call for an account can do that stops behind any of its statements. -/
def Changes (uid : String) (licence : Licence) : Vault → Vault → Prop :=
  Relation.ReflTransGen (Change crypto uid licence)

/-- What each statement keeps, a call keeps wherever it stops. -/
theorem Changes.keep {crypto : VaultCrypto} {uid : String} {licence : Licence}
    {P : Vault → Prop} (hP : ∀ v v', Change crypto uid licence v v' → P v → P v')
    {v v' : Vault} (h : Changes crypto uid licence v v') (hv : P v) : P v' := by
  induction h with
  | refl => exact hv
  | tail _ hchange ih => exact hP _ _ hchange ih

/-- Whatever fails, the call does only what its licence allows. -/
def Obeys {α : Type} (uid : String) (licence : Licence) (x : VaultM α) : Prop :=
  Exec.Relates (Changes crypto uid licence) x

end Change

section Obeys

variable {crypto : VaultCrypto} {uid : String} {licence : Licence} {α β : Type}

theorem obeys_pure (a : α) : Obeys crypto uid licence (pure a : VaultM α) :=
  Exec.relates_pure (fun _ => .refl) a

theorem obeys_fail (e : StoreError) :
    Obeys crypto uid licence (Exec.fail e : VaultM α) :=
  Exec.relates_fail (fun _ => .refl) e

theorem Obeys.bind {x : VaultM α} {f : α → VaultM β} (hx : Obeys crypto uid licence x)
    (hf : ∀ a, Obeys crypto uid licence (f a)) : Obeys crypto uid licence (x >>= f) :=
  Exec.Relates.bind (fun _ _ _ => Relation.ReflTransGen.trans) hx hf

theorem obeys_env : Obeys crypto uid licence env := by
  intro e v
  exact .refl

theorem obeys_ofExcept (x : Except StoreError α) :
    Obeys crypto uid licence (ofExcept x) := by
  intro e v
  exact .refl

theorem obeys_stmt {context : String} {f : Vault → α × Vault}
    (h : ∀ v, Changes crypto uid licence v (f v).2) :
    Obeys crypto uid licence (stmt context f) := by
  intro e v
  unfold Exec.after stmt
  split
  · exact .refl
  · exact h v

/-- A statement that only reads. -/
theorem obeys_read {context : String} {f : Vault → α × Vault} (h : ∀ v, (f v).2 = v) :
    Obeys crypto uid licence (stmt context f) := by
  intro e v
  unfold Exec.after stmt
  split
  · exact .refl
  · change Changes crypto uid licence v (f v).2
    rw [h v]
    exact .refl

theorem obeys_touch (context : String) : Obeys crypto uid licence (touch context) :=
  obeys_read (fun _ => rfl)

theorem obeys_readKey (context u : String) (key : AccountKey) :
    Obeys crypto uid licence (readKey context u key) :=
  obeys_read (fun _ => rfl)

theorem obeys_insertKey {context : String} {key : AccountKey} {value : KvValue}
    (h : PlainKey uid (some value) key) :
    Obeys crypto uid licence (insertKey context uid key value) :=
  obeys_stmt (fun v => .single (.key v key (some value) h))

theorem obeys_removeKey {context : String} {key : AccountKey}
    (h : PlainKey uid none key) :
    Obeys crypto uid licence (removeKey context uid key) :=
  obeys_stmt (fun v => .single (.key v key none h))

theorem obeys_flag {context : String} {b : Bool} (h : licence.flag b) :
    Obeys crypto uid licence (insertKey context uid .bootstrapCompleted (boolI32 b)) :=
  obeys_stmt (fun v => .single (.flag v b h))

/-- A column of the account's own in the accounts tree. -/
theorem obeys_insertColumn (context : String) (c : AccountColumn) (value : KvValue) :
    Obeys crypto uid licence (insertAccount context (accountKey c uid) value) := by
  refine obeys_stmt (fun v => .single (.account v _ ?_ (.inl ?_)))
  · intro c' u hu
    exact AList.lookup_insert_ne (fun heq => hu (accountKey_inj c' c heq).2)
  · exact AList.lookup_insert_ne (accountKey_ne_activeUid c uid).symm

theorem obeys_removeColumn (context : String) (c : AccountColumn) :
    Obeys crypto uid licence (removeAccount context (accountKey c uid)) := by
  refine obeys_stmt (fun v => .single (.account v _ ?_ (.inl ?_)))
  · intro c' u hu
    exact AList.lookup_erase_ne (fun heq => hu (accountKey_inj c' c heq).2)
  · exact AList.lookup_erase_ne (accountKey_ne_activeUid c uid).symm

theorem obeys_insertActive (context text : String) :
    Obeys crypto uid licence (insertAccount context kActiveUid (.text text)) := by
  refine obeys_stmt (fun v =>
    .single (.account v _ ?_ (.inr ⟨some text, AList.lookup_insert _⟩)))
  intro c u _
  exact AList.lookup_insert_ne (accountKey_ne_activeUid c u)

theorem obeys_removeActive (context : String) :
    Obeys crypto uid licence (removeAccount context kActiveUid) := by
  refine obeys_stmt (fun v =>
    .single (.account v _ ?_ (.inr ⟨none, AList.lookup_erase _ _⟩)))
  intro c u _
  exact AList.lookup_erase_ne (accountKey_ne_activeUid c u)

theorem obeys_insertSchema (context : String) (value : KvValue) :
    Obeys crypto uid licence (insertAccount context "schema_version" value) := by
  refine obeys_stmt (fun v => .single (.account v _ ?_ (.inl ?_)))
  · intro c u _
    exact AList.lookup_insert_ne (accountKey_ne_schemaVersion c u)
  · exact AList.lookup_insert_ne (by decide)

/-- A statement on the database of the account. -/
theorem obeys_withConn {context : String} {f : UserDb → α × UserDb}
    (hlegacy : ∀ db, db.authSession = none → (f db).2.authSession = none)
    (htables : ∀ db, licence.tables db.tables (f db).2.tables) :
    Obeys crypto uid licence (withConn context uid f) := by
  refine Obeys.bind
    (obeys_stmt (fun v =>
      .single (.dbs v _ (dbChange_connect v.dbs uid licence.tables_refl)))) ?_
  intro _
  refine obeys_stmt (fun v => .single (.dbs v _ (dbChange_write v.dbs uid _ ?_ ?_)))
  · exact hlegacy (v.dbs.seen uid)
  · exact htables (v.dbs.seen uid)

end Obeys

section Calls

variable {crypto : VaultCrypto} {uid : String} {licence : Licence}

/-- A statement ends in its result, or in its failure with nothing changed. -/
theorem ensures_stmt {α : Type} {context : String} {f : Vault → α × Vault} {e : VaultEnv}
    {v : Vault} {Q : α → Vault → Prop} {E : StoreError → Vault → Prop}
    (h : E (.storage context none) v ∧ Q (f v).1 (f v).2) :
    Exec.Ensures (stmt context f) e v Q E := by
  unfold Exec.Ensures stmt
  cases e.fault context with
  | true => exact h.1
  | false => exact h.2

theorem ensures_env {e : VaultEnv} {v : Vault} {Q : VaultEnv → Vault → Prop}
    {E : StoreError → Vault → Prop} : Exec.Ensures env e v Q E ↔ Q e v := by
  rfl

theorem not_complete_of_secret {v : Vault} {id : Option String} {context : String}
    (hid : getString context (v.install .deviceId) = .ok id)
    (hnone : ∀ text value, id = some text → v.install .installSecret = some value → False) :
    ¬ ∃ st, Complete v.install st := by
  rintro ⟨st, hst⟩
  rw [hst.deviceId] at hid
  exact hnone st.deviceId _ (Except.ok.inj hid).symm hst.installSecret

/-- Whatever fails, an installation that was complete stays the same. -/
theorem getInstallState_ensures (e : VaultEnv) (v : Vault) :
    Exec.Ensures getInstallState e v
      (fun st v' => Changes crypto uid licence v v' ∧ Complete v'.install st)
      (fun _ v' => Changes crypto uid licence v v') := by
  unfold getInstallState
  simp only [Exec.ensures_bind]
  refine ensures_stmt ⟨.refl, ensures_stmt ⟨.refl, ?_⟩⟩
  cases hid : getString "key device_id is not valid utf8" (v.install .deviceId) with
  | error err => exact .refl
  | ok id =>
      refine ensures_stmt ⟨.refl, ?_⟩
      split
      next text secret _ hsecret =>
        split
        · rename_i hlength
          refine ⟨.refl, ?_, hsecret, hlength⟩
          unfold getString at hid
          split at hid
          · cases hid
          · rename_i hvalue
            cases hid
            exact hvalue
          · cases hid
        · exact .refl
      next => exact .refl
      next _ _ _ hnone =>
        -- the values written before a failure make no complete installation a new one
        have hincomplete := not_complete_of_secret hid hnone
        have hchange : ∀ install : InstallKey → Option KvValue,
            (install .deviceId = v.install .deviceId ∨
              ∃ id, install .deviceId = some (.text id)) →
            (install .installSecret = v.install .installSecret ∨
              ∃ secret : Bytes, secret.length = 32 ∧
                install .installSecret = some (.bytes secret)) →
            Changes crypto uid licence v { v with install := install } :=
          fun install hid hsecret => .single (.install v install
            (fun st hst => (hincomplete ⟨st, hst⟩).elim) hid hsecret)
        simp only [Exec.ensures_bind]
        refine ensures_stmt ⟨.refl, ?_⟩
        refine ensures_stmt ⟨hchange _ (.inl (by simp)) (.inl (by simp)), ?_⟩
        refine ensures_stmt ⟨hchange _ (.inr ⟨_, by simp; rfl⟩) (.inl (by simp)), ?_⟩
        refine ensures_stmt ⟨hchange _ (.inr ⟨_, by simp; rfl⟩)
          (.inr ⟨e.installSecret.toList, by simp, by simp⟩), ?_⟩
        refine ⟨hchange _ (.inr ⟨_, by simp; rfl⟩)
          (.inr ⟨e.installSecret.toList, by simp, by simp⟩), ?_⟩
        exact ⟨by simp, by simp, by simp⟩

/-- Whatever fails, a master key that has its nonce opens. -/
theorem getOrCreateMasterKey_ensures (hcrypto : crypto.Correct) (e : VaultEnv) (v : Vault)
    {st : InstallState} (hst : Complete v.install st) :
    Exec.Ensures (getOrCreateMasterKey crypto uid st) e v
      (fun _ v' => Changes crypto uid licence v v')
      (fun _ v' => Changes crypto uid licence v v') := by
  unfold getOrCreateMasterKey
  simp only [Exec.ensures_bind]
  refine ensures_stmt ⟨.refl, ensures_stmt ⟨.refl, ?_⟩⟩
  split
  next w n _ _ =>
    unfold Exec.Ensures ofExcept
    cases unwrapMasterKey crypto uid st w n with
    | error err => exact .refl
    | ok key => exact .refl
  next _ _ hnone =>
    obtain ⟨wrapped, hwrapped⟩ := Option.isSome_iff_exists.mp (hcrypto.seals
      (crypto.deriveWrapKey st.deviceId st.installSecret uid) e.wrapNonce.toList
      e.masterKey.toList (wrapAad uid))
    have hwrap : Changes crypto uid licence v
        (v.setKey uid .masterKeyWrapped (some (.bytes wrapped))) := by
      refine .single (.wrapKey v wrapped ?_)
      rintro ⟨w, n, hw, hn⟩
      exact hnone w n hw hn
    simp only [Exec.ensures_bind, ensures_env, hwrapped]
    refine ensures_stmt ⟨.refl, ensures_stmt ⟨hwrap, hwrap.tail (.keyNonce _ _
      e.masterKey.toList ⟨st, wrapped, e.wrapNonce.toList, hst, by simp [Vault.setKey],
        by simp, ?_⟩)⟩⟩
    exact unwrapMasterKey_wrapped hcrypto (by simp) hwrapped

theorem obeys_of_ensures {α : Type} {x : VaultM α}
    (h : ∀ e v, Exec.Ensures x e v (fun _ v' => Changes crypto uid licence v v')
      (fun _ v' => Changes crypto uid licence v v')) : Obeys crypto uid licence x := by
  intro e v
  have hx := h e v
  unfold Exec.Ensures at hx
  unfold Exec.after
  split at hx
  next hrun => rwa [hrun]
  next hrun => rwa [hrun]

theorem obeys_getInstallState : Obeys crypto uid licence getInstallState :=
  obeys_of_ensures (fun e v =>
    (getInstallState_ensures e v).mono (fun _ _ h => h.1) (fun _ _ h => h))

/-- The master key of a login, with the installation that it needs. -/
theorem obeys_masterKey (hcrypto : crypto.Correct) :
    Obeys crypto uid licence
      (getInstallState >>= fun install => getOrCreateMasterKey crypto uid install) := by
  refine obeys_of_ensures (fun e v => ?_)
  rw [Exec.ensures_bind]
  refine (getInstallState_ensures e v).mono ?_ (fun _ _ h => h)
  rintro st v' ⟨hchanges, hst⟩
  exact (getOrCreateMasterKey_ensures hcrypto e v' hst).mono
    (fun _ _ h => hchanges.trans h) (fun _ _ h => hchanges.trans h)

theorem obeys_loadMasterKey : Obeys crypto uid licence (loadMasterKey crypto uid) := by
  unfold loadMasterKey
  refine obeys_getInstallState.bind (fun install => ?_)
  refine (obeys_readKey _ _ _).bind (fun wrapped => ?_)
  refine (obeys_readKey _ _ _).bind (fun nonce => ?_)
  split
  · exact obeys_ofExcept _
  · exact obeys_fail _
  · exact obeys_fail _

theorem obeys_encryptUserBlob (purpose : String) (key plain : Bytes) :
    Obeys crypto uid licence (encryptUserBlob crypto uid purpose key plain) := by
  unfold encryptUserBlob
  refine obeys_env.bind (fun e => ?_)
  split
  · exact obeys_fail _
  · exact obeys_pure _

theorem obeys_loadLegacySession : Obeys crypto uid licence (loadLegacySession uid) :=
  obeys_withConn (fun _ h => h) (fun _ => licence.tables_refl _)

theorem obeys_clearLegacySession : Obeys crypto uid licence (clearLegacySession uid) :=
  obeys_withConn (fun _ _ => rfl) (fun _ => licence.tables_refl _)

theorem obeys_loadBootstrapCompleted :
    Obeys crypto uid licence (loadBootstrapCompleted uid) := by
  unfold loadBootstrapCompleted
  refine (obeys_touch _).bind (fun _ => (obeys_readKey _ _ _).bind (fun value => ?_))
  split
  · exact (obeys_ofExcept _).bind (fun _ => obeys_pure _)
  · exact obeys_loadLegacySession.bind (fun _ => obeys_pure _)

theorem obeys_saveAccountKv (login : LoginResult) {b : Bool} (hb : licence.flag b)
    (blob : Bytes × Bytes) :
    Obeys crypto uid licence (saveAccountKv uid login b blob) := by
  unfold saveAccountKv
  refine obeys_env.bind (fun e => ?_)
  refine (obeys_touch _).bind (fun _ => (obeys_touch _).bind (fun _ => ?_))
  refine (obeys_touch _).bind (fun _ => ?_)
  refine (obeys_insertKey (by trivial)).bind (fun _ => ?_)
  refine (obeys_insertKey (by trivial)).bind (fun _ => ?_)
  refine (obeys_insertKey (by trivial)).bind (fun _ => ?_)
  refine (obeys_insertKey (by trivial)).bind (fun _ => (obeys_flag hb).bind (fun _ => ?_))
  refine (obeys_insertKey (by trivial)).bind (fun _ => ?_)
  refine (obeys_insertKey (by trivial)).bind (fun _ => ?_)
  refine (obeys_insertKey (by exact rfl)).bind (fun _ => ?_)
  refine (obeys_insertKey (by trivial)).bind (fun _ => ?_)
  refine (obeys_insertKey (by trivial)).bind (fun _ => ?_)
  refine (obeys_insertKey (by trivial)).bind (fun _ => ?_)
  refine (obeys_insertKey (by trivial)).bind (fun _ => ?_)
  refine (obeys_insertKey (by exact ⟨some login.deviceId, rfl⟩)).bind (fun _ => ?_)
  exact obeys_insertKey trivial

theorem obeys_saveAccountEntry : Obeys crypto uid licence (saveAccountEntry uid) := by
  unfold saveAccountEntry
  refine obeys_env.bind (fun e => ?_)
  refine (obeys_touch _).bind (fun _ => (obeys_insertSchema _ _).bind (fun _ => ?_))
  refine (obeys_insertActive _ uid).bind (fun _ => ?_)
  refine (obeys_read (fun _ => rfl)).bind (fun created => ?_)
  refine Obeys.bind ?_ (fun _ => obeys_insertColumn _ .lastLoginAt _)
  split
  · exact obeys_insertColumn _ .createdAt _
  · exact obeys_pure _

theorem obeys_saveCurrentUid (u : String) :
    Obeys crypto uid licence (saveCurrentUid u) :=
  obeys_stmt (fun v => .single (.current v (some u)))

theorem obeys_clearCurrentUid : Obeys crypto uid licence clearCurrentUid :=
  obeys_stmt (fun v => .single (.current v none))

/-- What follows the read of the watermark in `save_login`. -/
def loginWith (crypto : VaultCrypto) (uid : String) (login : LoginResult) (b : Bool) :
    VaultM PUnit := do
  let masterKey ← getInstallState >>= fun install => getOrCreateMasterKey crypto uid install
  let blob ← encryptUserBlob crypto uid "access_token" masterKey (utf8 login.token)
  let _ ← saveAccountKv uid login b blob
  let _ ← saveAccountEntry uid
  let _ ← clearLegacySession uid
  saveCurrentUid uid

theorem saveLogin_eq (crypto : VaultCrypto) (uid : String) (login : LoginResult) :
    saveLogin crypto uid login =
      (loadBootstrapCompleted uid >>= fun b => loginWith crypto uid login b) := by
  unfold loginWith
  simp only [Exec.bind_assoc]
  rfl

theorem obeys_loginWith (hcrypto : crypto.Correct) (login : LoginResult) {b : Bool}
    (hb : licence.flag b) : Obeys crypto uid licence (loginWith crypto uid login b) := by
  unfold loginWith
  refine (obeys_masterKey hcrypto).bind (fun masterKey => ?_)
  refine (obeys_encryptUserBlob _ _ _).bind (fun blob => ?_)
  refine (obeys_saveAccountKv login hb blob).bind (fun _ => ?_)
  refine obeys_saveAccountEntry.bind (fun _ => ?_)
  exact obeys_clearLegacySession.bind (fun _ => obeys_saveCurrentUid uid)

theorem obeys_saveLogin (hcrypto : crypto.Correct) (login : LoginResult)
    (hflag : ∀ b, licence.flag b) :
    Obeys crypto uid licence (saveLogin crypto uid login) := by
  rw [saveLogin_eq]
  exact obeys_loadBootstrapCompleted.bind (fun b => obeys_loginWith hcrypto login (hflag b))

theorem obeys_setBootstrapCompleted {b : Bool} (hb : licence.flag b) :
    Obeys crypto uid licence (setBootstrapCompleted uid b) := by
  unfold setBootstrapCompleted
  exact (obeys_touch _).bind (fun _ => (obeys_flag hb).bind (fun _ => obeys_touch _))

theorem obeys_loadAccessToken : Obeys crypto uid licence (loadAccessToken crypto uid) := by
  unfold loadAccessToken
  refine (obeys_touch _).bind (fun _ => (obeys_readKey _ _ _).bind (fun enc => ?_))
  refine (obeys_readKey _ _ _).bind (fun nonce => ?_)
  split
  · refine obeys_loadMasterKey.bind (fun key => (obeys_ofExcept _).bind (fun plain => ?_))
    split
    · exact obeys_pure _
    · exact obeys_fail _
  · exact obeys_pure _

theorem obeys_loadSessionFromAccount :
    Obeys crypto uid licence (loadSessionFromAccount crypto uid) := by
  unfold loadSessionFromAccount
  refine (obeys_touch _).bind (fun _ => (obeys_touch _).bind (fun _ => ?_))
  refine (obeys_touch _).bind (fun _ => (obeys_readKey _ _ _).bind (fun enc => ?_))
  refine (obeys_readKey _ _ _).bind (fun nonce => (obeys_readKey _ _ _).bind (fun id => ?_))
  refine (obeys_ofExcept _).bind (fun deviceId => (obeys_readKey _ _ _).bind (fun p => ?_))
  refine (obeys_ofExcept _).bind (fun profileUid => ?_)
  split
  · refine obeys_loadMasterKey.bind (fun key => (obeys_ofExcept _).bind (fun plain => ?_))
    split
    · exact obeys_fail _
    · split
      · exact obeys_fail _
      · refine (obeys_readKey _ _ _).bind (fun value => (obeys_ofExcept _).bind ?_)
        exact fun flag => obeys_pure _
  · exact obeys_pure _

theorem obeys_loadSession (hcrypto : crypto.Correct) (hflag : ∀ b, licence.flag b) :
    Obeys crypto uid licence (loadSession crypto uid) := by
  unfold loadSession
  refine obeys_loadSessionFromAccount.bind (fun snapshot => ?_)
  split
  · exact obeys_pure _
  · refine obeys_loadLegacySession.bind (fun legacy => ?_)
    split
    · exact obeys_pure _
    · rename_i legacy
      refine (obeys_saveLogin hcrypto _ hflag).bind (fun _ => ?_)
      exact (obeys_setBootstrapCompleted (hflag _)).bind (fun _ => obeys_pure _)

theorem obeys_clearActiveUid (context : String) {flush : VaultM PUnit}
    (hflush : Obeys crypto uid licence flush) :
    Obeys crypto uid licence (clearActiveUid context uid flush) := by
  unfold clearActiveUid
  refine (obeys_read (fun _ => rfl)).bind (fun active => ?_)
  refine (obeys_ofExcept _).bind (fun active => ?_)
  split
  · exact (obeys_removeActive _).bind (fun _ => hflush)
  · exact obeys_pure _

theorem obeys_clearSession : Obeys crypto uid licence (clearSession uid) := by
  unfold clearSession
  refine (obeys_touch _).bind (fun _ => ?_)
  refine (obeys_removeKey (by trivial)).bind (fun _ => ?_)
  refine (obeys_removeKey (by trivial)).bind (fun _ => ?_)
  refine (obeys_removeKey (by exact ⟨none, rfl⟩)).bind (fun _ => ?_)
  refine (obeys_removeKey (by trivial)).bind (fun _ => (obeys_touch _).bind (fun _ => ?_))
  exact (obeys_clearActiveUid _ (obeys_touch _)).bind (fun _ => obeys_clearLegacySession)

theorem changes_applyTokenBatch (v : Vault) (blob : Bytes × Bytes)
    (expiresAt : Option Nat) :
    Changes crypto uid licence v (v.applyTokenBatch uid blob expiresAt) := by
  unfold Vault.applyTokenBatch
  have halg : Changes crypto uid licence v _ :=
    .single (.key v .accessTokenAlg (some (.text "AES-256-GCM")) trivial)
  have henc := halg.tail (.key _ .accessTokenEnc (some (.bytes blob.1)) trivial)
  have hnonce := henc.tail (.key _ .accessTokenNonce (some (.bytes blob.2)) trivial)
  cases expiresAt with
  | none => exact hnonce
  | some t => exact hnonce.tail (.key _ .tokenExpireAt _ trivial)

theorem obeys_updateAccessToken (token : String) (expiresAt : Option Nat) :
    Obeys crypto uid licence (updateAccessToken crypto uid token expiresAt) := by
  unfold updateAccessToken
  refine obeys_loadMasterKey.bind (fun key => ?_)
  refine (obeys_encryptUserBlob _ _ _).bind (fun blob => (obeys_touch _).bind (fun _ => ?_))
  exact obeys_stmt (fun v => changes_applyTokenBatch v blob expiresAt)

theorem obeys_saveAccountText (c : AccountColumn) (value : Option String) :
    Obeys crypto uid licence (saveAccountText (accountKey c uid) value) := by
  unfold saveAccountText
  split
  · exact obeys_insertColumn _ c _
  · exact obeys_pure _

theorem obeys_saveAccountDisplayName
    (displayName username loginMode loginIdentifier : Option String) :
    Obeys crypto uid licence
      (saveAccountDisplayName uid displayName username loginMode loginIdentifier) := by
  unfold saveAccountDisplayName
  refine (obeys_touch _).bind (fun _ => ?_)
  refine (obeys_saveAccountText .displayName _).bind (fun _ => ?_)
  refine (obeys_saveAccountText .username _).bind (fun _ => ?_)
  refine (obeys_saveAccountText .loginMode _).bind (fun _ => ?_)
  exact obeys_saveAccountText .loginIdentifier _

theorem obeys_wipeUserFull (hwipe : licence.wipe) :
    Obeys crypto uid licence (wipeUserFull uid) := by
  unfold wipeUserFull
  refine (obeys_stmt (fun v => .single (.wipe v hwipe))).bind (fun _ => ?_)
  refine (obeys_touch _).bind (fun _ => ?_)
  refine (obeys_removeColumn _ .lastLoginAt).bind (fun _ => ?_)
  refine (obeys_removeColumn _ .createdAt).bind (fun _ => ?_)
  refine (obeys_clearActiveUid _ (obeys_pure _)).bind (fun _ => ?_)
  refine (obeys_touch _).bind (fun _ => ?_)
  refine ((obeys_read (fun _ => rfl)).bind (fun _ => obeys_pure _)).bind (fun current => ?_)
  split
  · exact obeys_clearCurrentUid
  · exact obeys_pure _

theorem obeys_withTables {f : Store → Store} (htables : ∀ s, licence.tables s (f s)) :
    Obeys crypto uid licence (withTables uid f) :=
  obeys_withConn (fun _ h => h) (fun db => htables db.tables)

end Calls

end Accounts
end PrivchatSdk
