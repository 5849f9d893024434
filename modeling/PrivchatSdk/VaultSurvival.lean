import PrivchatSdk.LegacyQueue
import PrivchatSdk.VaultFaults

/-!
# What survives failures, logouts and wipes

Four results about every run of calls of which any statements fail.  A login of which no
statement fails works, whatever failed before it (`login_recovers`).  Calls for other
accounts change no answer about an account (`answers_isolated`).  What an account
synchronised is still there behind a logout (`logout_keeps_data`).  And a wipe of an
account whose database is open takes effect only with the next process, which then loses
what was written since (`wipe_open_database`).
-/

namespace PrivchatSdk
namespace Accounts

open StatementExec
open EventRun

section Sound

variable {crypto : VaultCrypto}

/-- The shape of the stores that no failure breaks. -/
structure Sound (crypto : VaultCrypto) (v : Vault) : Prop where
  install : InstallOk v.install
  key : ∀ uid, KeyOk crypto v uid
  flag : ∀ uid, ∃ b : Option Bool, v.accountKv uid .bootstrapCompleted = b.map boolI32
  device : ∀ uid, ∃ text : Option String,
    v.accountKv uid .deviceIdCurrent = text.map KvValue.text
  profile : ∀ uid, v.accountKv uid .uid = none ∨ v.accountKv uid .uid = some (.text uid)
  active : ∃ text : Option String,
    v.accounts.lookup kActiveUid = text.map KvValue.text

theorem sound_start (crypto : VaultCrypto) (file : String → UserDb) :
    Sound crypto (Vault.start file) where
  install := ⟨.inl rfl, .inl rfl⟩
  key := fun _ => .inl rfl
  flag := fun _ => ⟨none, rfl⟩
  device := fun _ => ⟨none, rfl⟩
  profile := fun _ => .inl rfl
  active := ⟨none, rfl⟩

theorem Vault.setKey_same (v : Vault) (uid : String) (key : AccountKey)
    (value : Option KvValue) : (v.setKey uid key value).accountKv uid key = value := by
  simp [Vault.setKey]

theorem Vault.setKey_of_ne (v : Vault) {uid u : String} {key k : AccountKey}
    (value : Option KvValue) (h : u ≠ uid ∨ k ≠ key) :
    (v.setKey uid key value).accountKv u k = v.accountKv u k := by
  unfold Vault.setKey
  by_cases hu : u = uid
  · subst hu
    rw [Vault.withKv_accountKv, Function.update_of_ne (h.resolve_left (fun hne => hne rfl))]
  · rw [Vault.withKv_accountKv_of_ne v hu]

theorem HoldsKey.transfer {install install' : InstallKey → Option KvValue} {uid : String}
    {kv kv' : AccountKey → Option KvValue} {key : Bytes}
    (h : HoldsKey crypto install uid kv key)
    (hinstall : ∀ st, Complete install st → Complete install' st)
    (hwrapped : kv' .masterKeyWrapped = kv .masterKeyWrapped)
    (hnonce : kv' .masterKeyNonce = kv .masterKeyNonce) :
    HoldsKey crypto install' uid kv' key := by
  obtain ⟨st, wrapped, nonce, hst, hw, hn, hunwrap⟩ := h
  exact ⟨st, wrapped, nonce, hinstall st hst, hwrapped.trans hw, hnonce.trans hn, hunwrap⟩

theorem KeyOk.transfer {v v' : Vault} {uid : String} (h : KeyOk crypto v uid)
    (hinstall : ∀ st, Complete v.install st → Complete v'.install st)
    (hwrapped : v'.accountKv uid .masterKeyWrapped = v.accountKv uid .masterKeyWrapped)
    (hnonce : v'.accountKv uid .masterKeyNonce = v.accountKv uid .masterKeyNonce) :
    KeyOk crypto v' uid :=
  h.imp hnonce.trans (fun ⟨key, hholds⟩ =>
    ⟨key, hholds.transfer hinstall hwrapped hnonce⟩)

/-- A write of a key other than the two of the master key. -/
theorem Sound.setKey {v : Vault} (h : Sound crypto v) (uid : String) (key : AccountKey)
    (value : Option KvValue) (hwrapped : key ≠ .masterKeyWrapped)
    (hnonce : key ≠ .masterKeyNonce)
    (hflag : key = .bootstrapCompleted → ∃ b : Option Bool, value = b.map boolI32)
    (hdevice : key = .deviceIdCurrent → ∃ text : Option String, value = text.map KvValue.text)
    (hprofile : key = .uid → value = some (.text uid)) :
    Sound crypto (v.setKey uid key value) where
  install := h.install
  key := fun u => (h.key u).transfer (fun _ hst => hst)
    (v.setKey_of_ne value (.inr hwrapped.symm)) (v.setKey_of_ne value (.inr hnonce.symm))
  flag := by
    intro u
    by_cases hu : u = uid ∧ .bootstrapCompleted = key
    · obtain ⟨rfl, rfl⟩ := hu
      rw [v.setKey_same]
      exact hflag rfl
    · rw [v.setKey_of_ne value (not_and_or.mp hu)]
      exact h.flag u
  device := by
    intro u
    by_cases hu : u = uid ∧ .deviceIdCurrent = key
    · obtain ⟨rfl, rfl⟩ := hu
      rw [v.setKey_same]
      exact hdevice rfl
    · rw [v.setKey_of_ne value (not_and_or.mp hu)]
      exact h.device u
  profile := by
    intro u
    by_cases hu : u = uid ∧ .uid = key
    · obtain ⟨rfl, rfl⟩ := hu
      rw [v.setKey_same]
      exact .inr (hprofile rfl)
    · rw [v.setKey_of_ne value (not_and_or.mp hu)]
      exact h.profile u
  active := h.active

/-- A write of one of the two keys of the master key. -/
theorem Sound.setMasterKey {v : Vault} (h : Sound crypto v) {uid : String}
    {key : AccountKey} {value : Option KvValue}
    (hmaster : key = .masterKeyWrapped ∨ key = .masterKeyNonce)
    (hkey : KeyOk crypto (v.setKey uid key value) uid) :
    Sound crypto (v.setKey uid key value) := by
  have hne : .bootstrapCompleted ≠ key ∧ .deviceIdCurrent ≠ key ∧ .uid ≠ key := by
    rcases hmaster with rfl | rfl <;> decide
  refine ⟨h.install, ?_, ?_, ?_, ?_, h.active⟩
  · intro u
    by_cases hu : u = uid
    · subst hu
      exact hkey
    · exact (h.key u).transfer (fun _ hst => hst) (v.setKey_of_ne value (.inl hu))
        (v.setKey_of_ne value (.inl hu))
  · intro u
    rw [v.setKey_of_ne value (.inr hne.1)]
    exact h.flag u
  · intro u
    rw [v.setKey_of_ne value (.inr hne.2.1)]
    exact h.device u
  · intro u
    rw [v.setKey_of_ne value (.inr hne.2.2)]
    exact h.profile u

theorem Change.sound {uid : String} {licence : Licence} {v v' : Vault}
    (h : Change crypto uid licence v v') (hs : Sound crypto v) : Sound crypto v' := by
  cases h with
  | install install hkeep hid hsecret =>
      refine ⟨⟨?_, ?_⟩, ?_, hs.flag, hs.device, hs.profile, hs.active⟩
      · rcases hid with hid | hid
        · exact hs.install.1.imp hid.trans (fun ⟨id, h⟩ => ⟨id, hid.trans h⟩)
        · exact .inr hid
      · rcases hsecret with hsecret | hsecret
        · exact hs.install.2.imp hsecret.trans
            (fun ⟨secret, hlength, h⟩ => ⟨secret, hlength, hsecret.trans h⟩)
        · exact .inr hsecret
      · exact fun u => (hs.key u).transfer hkeep rfl rfl
  | wrapKey wrapped hnone =>
      refine hs.setMasterKey (.inl rfl) (.inl ?_)
      rw [v.setKey_of_ne _ (.inr (by decide))]
      rcases hs.key uid with hnonce | ⟨key, st, w, n, _, hw, hn, _⟩
      · exact hnonce
      · exact (hnone ⟨w, n, hw, hn⟩).elim
  | keyNonce nonce key hholds =>
      refine hs.setMasterKey (.inr rfl) (.inr ⟨key, ?_⟩)
      unfold Vault.setKey
      rw [Vault.withKv_accountKv]
      exact hholds
  | flag b _ =>
      exact hs.setKey uid _ _ (by decide) (by decide) (fun _ => ⟨some b, rfl⟩) nofun nofun
  | key key value hplain =>
      refine hs.setKey uid key value ?_ ?_ ?_ ?_ ?_
      · rintro rfl
        exact hplain
      · rintro rfl
        exact hplain
      · rintro rfl
        exact hplain.elim
      · rintro rfl
        exact hplain
      · rintro rfl
        exact hplain
  | account accounts _ hactive =>
      refine ⟨hs.install, hs.key, hs.flag, hs.device, hs.profile, ?_⟩
      rcases hactive with hactive | hactive
      · obtain ⟨text, htext⟩ := hs.active
        exact ⟨text, hactive.trans htext⟩
      · exact hactive
  | dbs d _ => exact ⟨hs.install, hs.key, hs.flag, hs.device, hs.profile, hs.active⟩
  | current c => exact ⟨hs.install, hs.key, hs.flag, hs.device, hs.profile, hs.active⟩
  | wipe _ =>
      have hkv : ∀ u, (v.removeUserDir uid).accountKv u = v.accountKv u ∨
          (v.removeUserDir uid).accountKv u = fun _ => none := by
        intro u
        unfold Vault.removeUserDir
        by_cases hu : u = uid
        · subst hu
          exact .inr (Vault.withKv_accountKv v u _)
        · exact .inl (Vault.withKv_accountKv_of_ne v hu _)
      refine ⟨hs.install, ?_, ?_, ?_, ?_, hs.active⟩
      · intro u
        rcases hkv u with h | h
        · exact (hs.key u).transfer (fun _ hst => hst) (by rw [h]) (by rw [h])
        · exact .inl (by rw [h])
      · intro u
        rcases hkv u with h | h
        · rw [h]
          exact hs.flag u
        · exact ⟨none, by rw [h]; rfl⟩
      · intro u
        rcases hkv u with h | h
        · rw [h]
          exact hs.device u
        · exact ⟨none, by rw [h]; rfl⟩
      · intro u
        rcases hkv u with h | h
        · rw [h]
          exact hs.profile u
        · exact .inl (by rw [h])

theorem Changes.sound {uid : String} {licence : Licence} {v v' : Vault}
    (h : Changes crypto uid licence v v') (hs : Sound crypto v) : Sound crypto v' :=
  h.keep (fun _ _ hchange => hchange.sound) hs

end Sound

section Frame

variable {crypto : VaultCrypto}

/-- What a call for another account leaves of an account. -/
structure Frame (u : String) (v v' : Vault) : Prop where
  kv : v'.accountKv u = v.accountKv u
  column : ∀ c, v'.accounts.lookup (accountKey c u) = v.accounts.lookup (accountKey c u)
  file : v'.dbs.file u = v.dbs.file u
  conn : v'.dbs.conn u = v.dbs.conn u
  install : ∀ st, Complete v.install st → Complete v'.install st

theorem frame_refl (u : String) (v : Vault) : Frame u v v :=
  ⟨rfl, fun _ => rfl, rfl, rfl, fun _ hst => hst⟩

theorem Frame.trans {u : String} {v v' v'' : Vault} (h : Frame u v v')
    (h' : Frame u v' v'') : Frame u v v'' where
  kv := h'.kv.trans h.kv
  column := fun c => (h'.column c).trans (h.column c)
  file := h'.file.trans h.file
  conn := h'.conn.trans h.conn
  install := fun st hst => h'.install st (h.install st hst)

theorem Change.frame {uid u : String} {licence : Licence} {v v' : Vault}
    (h : Change crypto uid licence v v') (hu : u ≠ uid) : Frame u v v' := by
  have hset : ∀ key value, Frame u v (v.setKey uid key value) := fun key value =>
    ⟨Vault.withKv_accountKv_of_ne v hu _, fun _ => rfl, rfl, rfl, fun _ hst => hst⟩
  cases h with
  | install install hkeep _ _ => exact ⟨rfl, fun _ => rfl, rfl, rfl, hkeep⟩
  | wrapKey wrapped _ => exact hset _ _
  | keyNonce nonce key _ => exact hset _ _
  | flag b _ => exact hset _ _
  | key key value _ => exact hset _ _
  | account accounts hother _ =>
      exact ⟨rfl, fun c => hother c u hu, rfl, rfl, fun _ hst => hst⟩
  | dbs d hdbs =>
      exact ⟨rfl, fun _ => rfl, (hdbs.other u hu).1, (hdbs.other u hu).2, fun _ hst => hst⟩
  | current c => exact ⟨rfl, fun _ => rfl, rfl, rfl, fun _ hst => hst⟩
  | wipe _ =>
      refine ⟨Vault.withKv_accountKv_of_ne v hu _, fun _ => rfl, ?_, ?_, fun _ hst => hst⟩
      · exact Function.update_of_ne hu _ _
      · exact v.dbs.remove_conn_of_ne uid hu

theorem Changes.frame {uid u : String} {licence : Licence} {v v' : Vault}
    (h : Changes crypto uid licence v v') (hu : u ≠ uid) : Frame u v v' := by
  induction h with
  | refl => exact frame_refl u v
  | tail _ hchange ih => exact ih.trans (hchange.frame hu)

end Frame

section Steps

variable {crypto : VaultCrypto}

/-- The account that a call is for. -/
def VaultOp.account : VaultOp → Option String
  | .saveLogin uid _ => some uid
  | .setBootstrapCompleted uid _ => some uid
  | .loadSession uid => some uid
  | .loadAccessToken uid => some uid
  | .loadBootstrapCompleted uid => some uid
  | .clearSession uid => some uid
  | .updateAccessToken uid _ _ => some uid
  | .saveCurrentUid _ => none
  | .clearCurrentUid => none
  | .saveAccountDisplayName uid _ _ _ _ => some uid
  | .wipeUserFull uid => some uid
  | .tables uid _ => some uid
  | .restart => none

/-- Everything is allowed, but for the removal of the files. -/
def Licence.any (wipe : Prop) : Licence where
  flag := fun _ => True
  tables := fun _ _ => True
  tables_refl := fun _ => trivial
  wipe := wipe

/-- Whatever fails, a call changes what it may for its account, if it has one. -/
theorem vaultStep_changes (hcrypto : crypto.Correct) (v : Vault) {ev : VaultOp × VaultEnv}
    {uid : String} (haccount : ∀ u, ev.1.account = some u → u = uid)
    (hrestart : ev.1 ≠ .restart) {wipe : Prop} (hwipe : ev.1 = .wipeUserFull uid → wipe) :
    Changes crypto uid (Licence.any wipe) v (vaultStep crypto v ev) := by
  obtain ⟨op, e⟩ := ev
  cases op with
  | saveLogin u login =>
      obtain rfl := haccount u rfl
      exact obeys_saveLogin hcrypto login (fun _ => trivial) e v
  | setBootstrapCompleted u completed =>
      obtain rfl := haccount u rfl
      exact obeys_setBootstrapCompleted trivial e v
  | loadSession u =>
      obtain rfl := haccount u rfl
      exact obeys_loadSession hcrypto (fun _ => trivial) e v
  | loadAccessToken u =>
      obtain rfl := haccount u rfl
      exact obeys_loadAccessToken e v
  | loadBootstrapCompleted u =>
      obtain rfl := haccount u rfl
      exact obeys_loadBootstrapCompleted e v
  | clearSession u =>
      obtain rfl := haccount u rfl
      exact obeys_clearSession e v
  | updateAccessToken u token expiresAt =>
      obtain rfl := haccount u rfl
      exact obeys_updateAccessToken token expiresAt e v
  | saveCurrentUid u => exact obeys_saveCurrentUid u e v
  | clearCurrentUid => exact obeys_clearCurrentUid e v
  | saveAccountDisplayName u displayName username loginMode loginIdentifier =>
      obtain rfl := haccount u rfl
      exact obeys_saveAccountDisplayName displayName username loginMode loginIdentifier e v
  | wipeUserFull u =>
      obtain rfl := haccount u rfl
      exact obeys_wipeUserFull (hwipe rfl) e v
  | tables u f =>
      obtain rfl := haccount u rfl
      exact obeys_withTables (fun _ => trivial) e v
  | restart => exact (hrestart rfl).elim

theorem Sound.step (hcrypto : crypto.Correct) {v : Vault} (h : Sound crypto v)
    (ev : VaultOp × VaultEnv) : Sound crypto (vaultStep crypto v ev) := by
  by_cases hrestart : ev.1 = .restart
  · obtain ⟨op, e⟩ := ev
    cases hrestart
    exact ⟨h.install, h.key, h.flag, h.device, h.profile, h.active⟩
  · have haccount : ∀ u, ev.1.account = some u → u = ev.1.account.getD "" := by
      intro u hu
      rw [hu, Option.getD_some]
    exact (vaultStep_changes hcrypto v haccount hrestart (fun _ => trivial)).sound h

/-- Every run keeps the stores in shape, whatever fails in it. -/
theorem sound_run (hcrypto : crypto.Correct) (file : String → UserDb)
    (events : List (VaultOp × VaultEnv)) :
    Sound crypto (run (vaultStep crypto) (Vault.start file) events) :=
  run_invariant (Sound crypto) (fun _ ev h => h.step hcrypto ev) (sound_start crypto file)
    events

/-- A call for no account or another one. -/
theorem frame_step (hcrypto : crypto.Correct) (v : Vault) {ev : VaultOp × VaultEnv}
    {u : String} (haccount : ev.1.account ≠ some u) (hrestart : ev.1 ≠ .restart) :
    Frame u v (vaultStep crypto v ev) := by
  have hother : ∃ uid, u ≠ uid ∧ ∀ w, ev.1.account = some w → w = uid := by
    cases hop : ev.1.account with
    | some uid =>
        exact ⟨uid, fun heq => haccount (heq ▸ hop), fun w hw => (Option.some.inj hw).symm⟩
    | none =>
        refine ⟨u.push 'x', ?_, nofun⟩
        intro heq
        have hlength := congrArg String.length heq
        simp at hlength
  obtain ⟨uid, hne, hw⟩ := hother
  exact (vaultStep_changes hcrypto v hw hrestart (fun _ => trivial)).frame hne

end Steps

section Recovery

variable {crypto : VaultCrypto} {e : VaultEnv} {v : Vault}

/-- The watermark of an account can be read, from its store or an older version's row. -/
theorem Sound.loadBootstrapCompleted (h : Sound crypto v) (he : e.Calm) (uid : String) :
    ∃ b dbs, loadBootstrapCompleted uid e v = (.ok b, { v with dbs := dbs }) ∧
      ∀ b', v.accountKv uid .bootstrapCompleted = some (boolI32 b') → b = b' := by
  obtain ⟨flag, hflag⟩ := h.flag uid
  unfold Accounts.loadBootstrapCompleted
  simp only [Exec.bind_run, touch_calm he, readKey_calm he, hflag]
  cases flag with
  | none =>
      simp only [Option.map_none, Exec.bind_run, loadLegacySession_calm he, Exec.pure_run]
      exact ⟨_, _, rfl, nofun⟩
  | some b =>
      simp only [Option.map_some, Exec.bind_run, ofExcept_run, i32FromBeSlice_boolI32,
        Exec.pure_run]
      refine ⟨b, v.dbs, by cases b <;> rfl, ?_⟩
      intro b' hb'
      revert hb'
      cases b <;> cases b' <;> decide

/-- The account that a login leaves. -/
def loggedIn (login : LoginResult) (b : Bool) : Account :=
  { Account.empty with
    hasKey := true
    token := some login.token
    deviceId := some login.deviceId
    watermark := some b }

theorem Sound.saveLogin (h : Sound crypto v) (he : e.Calm) (hcrypto : crypto.Correct)
    (uid : String) (login : LoginResult) :
    ∃ b v', (Accounts.loadBootstrapCompleted uid e v).1 = .ok b ∧
      saveLogin crypto uid login e v = (.ok .unit, v') ∧
      StandsFor crypto v'.install uid (v'.accountKv uid) (loggedIn login b) := by
  obtain ⟨b, dbs, hb, _⟩ := h.loadBootstrapCompleted he uid
  obtain ⟨install, kv, key, blob, hrun, _, _, hholds, hdecrypt⟩ :=
    saveLogin_calm he hcrypto h.install (h.key uid) hb login
  refine ⟨b, _, congrArg Prod.fst hb, hrun, ?_⟩
  simp only [Function.update_self]
  exact standsFor_savedKv hholds hdecrypt Account.empty b e.now none

/--
A login of which no statement fails works, whatever failed before it: the token is the
new one, the watermark is what it was, and the session is read back.
-/
theorem login_recovers (hcrypto : crypto.Correct) (file : String → UserDb)
    (events : List (VaultOp × VaultEnv)) (uid : String) (login : LoginResult)
    (he : e.Calm) :
    let v := run (vaultStep crypto) (Vault.start file) events
    let v' := (saveLogin crypto uid login).after e v
    (saveLogin crypto uid login e v).1 = .ok .unit ∧
      ∃ b, (loadBootstrapCompleted uid e v).1 = .ok b ∧ ∀ e' : VaultEnv, e'.Calm →
        (loadAccessToken crypto uid e' v').1 = .ok (some login.token) ∧
        (loadBootstrapCompleted uid e' v').1 = .ok b ∧
        ∀ userId, parseU64 uid = some userId →
          (loadSession crypto uid e' v').1 = .ok (some {
            userId := userId
            token := login.token
            deviceId := login.deviceId
            bootstrapCompleted := b }) := by
  intro v v'
  have hs : Sound crypto v := sound_run hcrypto file events
  obtain ⟨b, w, hb, hrun, hstands⟩ := hs.saveLogin he hcrypto uid login
  have hw : v' = w := congrArg Prod.snd hrun
  have hs' : Sound crypto v' := by
    have hobeys : Obeys crypto uid (Licence.any True) (saveLogin crypto uid login) :=
      obeys_saveLogin hcrypto login (fun _ => trivial)
    exact (hobeys e v).sound hs
  rw [← hw] at hstands
  refine ⟨congrArg Prod.fst hrun, b, hb, fun e' he' => ⟨?_, ?_, ?_⟩⟩
  · rw [hstands.loadAccessToken he']
    rfl
  · obtain ⟨b', dbs, hb', hrecorded⟩ := hs'.loadBootstrapCompleted he' uid
    rw [hb', hrecorded b hstands.watermark]
  · intro userId huid
    have hsession : (loggedIn login b).session uid = .ok (some {
        userId := userId
        token := login.token
        deviceId := login.deviceId
        bootstrapCompleted := b }) := by
      unfold Account.session loggedIn
      simp only [huid]
      rfl
    unfold loadSession
    simp only [Exec.bind_run, hstands.loadSessionFromAccount he', hsession, Exec.pure_run]

/-- A call of which one statement fails. -/
def failingEnv (context : String) (now : Int) : VaultEnv :=
  { quietEnv now with fault := fun c => c == context }

def loginOf (token : String) : LoginResult where
  token := token
  deviceId := "phone"
  expiresAt := 9

/-- The first login failed between the two writes of its master key. -/
theorem login_recovers_torn_key :
    let v := run (vaultStep openCrypto) (Vault.start (fun _ => UserDb.fresh))
      [(.saveLogin "7" (loginOf "old"), failingEnv "save wrapped master key nonce" 1)]
    let v' := (saveLogin openCrypto "7" (loginOf "new")).after (quietEnv 2) v
    (loadAccessToken openCrypto "7" (quietEnv 3) v').1 = .ok (some "new") := by
  intro v v'
  obtain ⟨_, b, _, hreads⟩ := login_recovers openCrypto_correct (fun _ => UserDb.fresh)
    [(.saveLogin "7" (loginOf "old"), failingEnv "save wrapped master key nonce" 1)] "7"
    (loginOf "new") (quietEnv_calm 2)
  exact (hreads (quietEnv 3) (quietEnv_calm 3)).1

end Recovery

section Isolation

variable {crypto : VaultCrypto} {e : VaultEnv}

/-- Two vaults hold the same of an account. -/
structure Alike (u : String) (v w : Vault) : Prop where
  kv : w.accountKv u = v.accountKv u
  column : ∀ c, w.accounts.lookup (accountKey c u) = v.accounts.lookup (accountKey c u)
  seen : w.dbs.seen u = v.dbs.seen u
  install : ∀ st, Complete v.install st → Complete w.install st

theorem Alike.trans {u : String} {v w x : Vault} (h : Alike u v w) (h' : Alike u w x) :
    Alike u v x where
  kv := h'.kv.trans h.kv
  column := fun c => (h'.column c).trans (h.column c)
  seen := h'.seen.trans h.seen
  install := fun st hst => h'.install st (h.install st hst)

theorem Frame.alike {u : String} {v w : Vault} (h : Frame u v w) : Alike u v w where
  kv := h.kv
  column := h.column
  seen := by
    unfold UserDbs.seen
    rw [h.conn, h.file]
  install := h.install

theorem Frame.unlinked {u : String} {v w : Vault} (h : Frame u v w) :
    w.dbs.Unlinked u ↔ v.dbs.Unlinked u := by
  unfold UserDbs.Unlinked
  rw [h.conn]

theorem alike_restart {u : String} {v : Vault} (h : ¬ v.dbs.Unlinked u) :
    Alike u v { v with dbs := v.dbs.restart } where
  kv := rfl
  column := fun _ => rfl
  seen := (UserDbs.seen_of_linked h).symm
  install := fun _ hst => hst

/-- Calls for other accounts, and new processes where they do not matter. -/
theorem alike_run (hcrypto : crypto.Correct) {u : String} {v : Vault}
    {events : List (VaultOp × VaultEnv)} (haccount : ∀ ev ∈ events, ev.1.account ≠ some u)
    (hrestart : (∀ ev ∈ events, ev.1 ≠ .restart) ∨ ¬ v.dbs.Unlinked u) :
    Alike u v (run (vaultStep crypto) v events) := by
  induction events generalizing v with
  | nil => exact (frame_refl u v).alike
  | cons ev events ih =>
      obtain ⟨hev, hevents⟩ := List.forall_mem_cons.mp haccount
      rw [run_cons]
      by_cases hop : ev.1 = .restart
      · have hopen : ¬ v.dbs.Unlinked u :=
          hrestart.resolve_left (fun h => h ev List.mem_cons_self hop)
        have hstep : vaultStep crypto v ev = { v with dbs := v.dbs.restart } := by
          obtain ⟨op, e⟩ := ev
          cases hop
          rfl
        rw [hstep]
        exact (alike_restart hopen).trans (ih hevents
          (.inr (v.dbs.restart_linked u)))
      · have hframe := frame_step hcrypto v hev hop
        refine hframe.alike.trans (ih hevents ?_)
        rw [hframe.unlinked]
        exact hrestart.imp_left (fun h => (List.forall_mem_cons.mp h).2)

theorem Alike.loadMasterKey {u : String} {v w : Vault} (h : Alike u v w)
    (hv : Sound crypto v) (hw : Sound crypto w) (he : e.Calm) :
    ∃ res i j, loadMasterKey crypto u e v = (res, { v with install := i }) ∧
      loadMasterKey crypto u e w = (res, { w with install := j }) := by
  rcases hv.key u with hnone | ⟨key, hholds⟩
  · obtain ⟨i, hi, _⟩ := loadMasterKey_none crypto he hv.install hnone
    obtain ⟨j, hj, _⟩ := loadMasterKey_none crypto he hw.install (by rw [h.kv, hnone])
    rw [h.kv] at hj
    exact ⟨_, i, j, hi, hj⟩
  · have hholds' := hholds.transfer h.install (congrFun h.kv _) (congrFun h.kv _)
    exact ⟨_, v.install, w.install, loadMasterKey_holds he hholds,
      loadMasterKey_holds he hholds'⟩

/-- A computation answers the same on two vaults, and changes at most the installation. -/
def Agree {α : Type} (e : VaultEnv) (v w : Vault) (x : VaultM α) : Prop :=
  ∃ res i j, x e v = (res, { v with install := i }) ∧ x e w = (res, { w with install := j })

/-- A statement reads the same from two vaults. -/
def ReadsSame {α : Type} (e : VaultEnv) (v w : Vault) (x : VaultM α) : Prop :=
  ∃ res, x e v = (res, v) ∧ x e w = (res, w)

variable {α β : Type} {v w : Vault} {u : String}

theorem ReadsSame.agree {x : VaultM α} (h : ReadsSame e v w x) : Agree e v w x := by
  obtain ⟨res, hv, hw⟩ := h
  exact ⟨res, v.install, w.install, hv, hw⟩

theorem readsSame_pure (a : α) : ReadsSame e v w (pure a : VaultM α) :=
  ⟨.ok a, rfl, rfl⟩

theorem readsSame_fail (err : StoreError) :
    ReadsSame e v w (Exec.fail err : VaultM α) :=
  ⟨.error err, rfl, rfl⟩

theorem readsSame_ofExcept (x : Except StoreError α) : ReadsSame e v w (ofExcept x) :=
  ⟨x, rfl, rfl⟩

theorem readsSame_touch (he : e.Calm) (context : String) :
    ReadsSame e v w (touch context) :=
  ⟨.ok .unit, touch_calm he context v, touch_calm he context w⟩

theorem readsSame_readKey (he : e.Calm) (hkv : w.accountKv u = v.accountKv u)
    (context : String) (key : AccountKey) : ReadsSame e v w (readKey context u key) := by
  refine ⟨.ok (v.accountKv u key), readKey_calm he context u key v, ?_⟩
  rw [readKey_calm he, hkv]

theorem Agree.bind {x : VaultM α} {f : α → VaultM β} (hx : Agree e v w x)
    (hf : ∀ a i j, Agree e { v with install := i } { w with install := j } (f a)) :
    Agree e v w (x >>= f) := by
  obtain ⟨res, i, j, hv, hw⟩ := hx
  unfold Agree
  simp only [Exec.bind_run, hv, hw]
  cases res with
  | error err => exact ⟨_, i, j, rfl, rfl⟩
  | ok a => exact hf a i j

theorem ReadsSame.bind {x : VaultM α} {f : α → VaultM β} (hx : ReadsSame e v w x)
    (hf : ∀ a, Agree e v w (f a)) : Agree e v w (x >>= f) := by
  obtain ⟨res, hv, hw⟩ := hx
  unfold Agree
  simp only [Exec.bind_run, hv, hw]
  cases res with
  | error err => exact ⟨_, v.install, w.install, rfl, rfl⟩
  | ok a => exact hf a

theorem Alike.agree_loadAccessToken (h : Alike u v w) (hv : Sound crypto v)
    (hw : Sound crypto w) (he : e.Calm) : Agree e v w (loadAccessToken crypto u) := by
  unfold loadAccessToken
  refine (readsSame_touch he _).bind (fun _ => ?_)
  refine (readsSame_readKey he h.kv _ _).bind (fun enc => ?_)
  refine (readsSame_readKey he h.kv _ _).bind (fun nonce => ?_)
  split
  · refine Agree.bind (h.loadMasterKey hv hw he) (fun key i j => ?_)
    refine (readsSame_ofExcept _).bind (fun plain => ?_)
    split
    · exact (readsSame_pure _).agree
    · exact (readsSame_fail _).agree
  · exact (readsSame_pure _).agree

theorem Alike.agree_loadSessionFromAccount (h : Alike u v w) (hv : Sound crypto v)
    (hw : Sound crypto w) (he : e.Calm) :
    Agree e v w (loadSessionFromAccount crypto u) := by
  unfold loadSessionFromAccount
  refine (readsSame_touch he _).bind (fun _ => (readsSame_touch he _).bind (fun _ => ?_))
  refine (readsSame_touch he _).bind (fun _ => ?_)
  refine (readsSame_readKey he h.kv _ _).bind (fun enc => ?_)
  refine (readsSame_readKey he h.kv _ _).bind (fun nonce => ?_)
  refine (readsSame_readKey he h.kv _ _).bind (fun device => ?_)
  refine (readsSame_ofExcept _).bind (fun deviceId => ?_)
  refine (readsSame_readKey he h.kv _ _).bind (fun profile => ?_)
  refine (readsSame_ofExcept _).bind (fun profileUid => ?_)
  split
  · refine Agree.bind (h.loadMasterKey hv hw he) (fun key i j => ?_)
    refine (readsSame_ofExcept _).bind (fun plain => ?_)
    split
    · exact (readsSame_fail _).agree
    · split
      · exact (readsSame_fail _).agree
      · refine ReadsSame.bind (readsSame_readKey he ?_ _ _) (fun value => ?_)
        · exact h.kv
        exact (readsSame_ofExcept _).bind (fun flag => (readsSame_pure _).agree)
  · exact (readsSame_pure _).agree

theorem Alike.loadBootstrapCompleted (h : Alike u v w) (he : e.Calm) :
    (loadBootstrapCompleted u e w).1 = (loadBootstrapCompleted u e v).1 := by
  unfold Accounts.loadBootstrapCompleted
  simp only [Exec.bind_run, touch_calm he, readKey_calm he, h.kv]
  cases v.accountKv u .bootstrapCompleted with
  | none =>
      simp only [Exec.bind_run, loadLegacySession_calm he, h.seen, Exec.pure_run]
  | some value =>
      simp only [Exec.bind_run, ofExcept_run]
      cases i32FromBeSlice value with
      | error err => rfl
      | ok flag => rfl

/-- The session of an older version stands in where the account's own store has none. -/
def orLegacy (legacy : Option SessionSnapshot) :
    Except StoreError (Option SessionSnapshot) → Except StoreError (Option SessionSnapshot)
  | .ok none => .ok legacy
  | found => found

/-- A load answers the account's own session, or else that of an older version. -/
theorem Sound.loadSession (h : Sound crypto v) (he : e.Calm) (hcrypto : crypto.Correct)
    {res : Except StoreError (Option SessionSnapshot)}
    {install : InstallKey → Option KvValue}
    (hown : loadSessionFromAccount crypto u e v = (res, { v with install := install })) :
    (loadSession crypto u e v).1 = orLegacy (v.dbs.seen u).authSession res := by
  have hs : Sound crypto { v with install := install } := by
    have hobeys : Obeys crypto u (Licence.any True) (loadSessionFromAccount crypto u) :=
      obeys_loadSessionFromAccount
    have hafter := (hobeys e v).sound h
    unfold Exec.after at hafter
    rwa [hown] at hafter
  unfold Accounts.loadSession
  simp only [Exec.bind_run, hown]
  rcases res with err | _ | snapshot
  · rfl
  · simp only [Exec.bind_run, loadLegacySession_calm he]
    cases (v.dbs.seen u).authSession with
    | none => rfl
    | some legacy =>
        have hs' : Sound crypto
            { v with install := install, dbs := v.dbs.connect u } :=
          ⟨hs.install, hs.key, hs.flag, hs.device, hs.profile, hs.active⟩
        obtain ⟨b, v', _, hrun, _⟩ := hs'.saveLogin he hcrypto u
          { token := legacy.token, deviceId := legacy.deviceId, expiresAt := 0 }
        simp only [Exec.bind_run, hrun]
        unfold setBootstrapCompleted
        simp only [Exec.bind_run, touch_calm he, insertKey_calm he, Exec.pure_run, orLegacy]
  · rfl

theorem Alike.loadSession (h : Alike u v w) (hv : Sound crypto v) (hw : Sound crypto w)
    (he : e.Calm) (hcrypto : crypto.Correct) :
    (loadSession crypto u e w).1 = (loadSession crypto u e v).1 := by
  obtain ⟨res, i, j, hi, hj⟩ := h.agree_loadSessionFromAccount hv hw he
  rw [hv.loadSession he hcrypto hi, hw.loadSession he hcrypto hj, h.seen]

/--
Calls for other accounts change no answer about an account, whatever fails in them; and
neither does a new process, unless the database of the account was removed while it was
open.
-/
theorem answers_isolated (hcrypto : crypto.Correct) (file : String → UserDb)
    (before after : List (VaultOp × VaultEnv)) (uid : String)
    (haccount : ∀ ev ∈ after, ev.1.account ≠ some uid)
    (hrestart : (∀ ev ∈ after, ev.1 ≠ .restart) ∨
      ¬ (run (vaultStep crypto) (Vault.start file) before).dbs.Unlinked uid)
    (he : e.Calm) :
    let v := run (vaultStep crypto) (Vault.start file) before
    let w := run (vaultStep crypto) v after
    (loadSession crypto uid e w).1 = (loadSession crypto uid e v).1 ∧
      (loadAccessToken crypto uid e w).1 = (loadAccessToken crypto uid e v).1 ∧
      (loadBootstrapCompleted uid e w).1 = (loadBootstrapCompleted uid e v).1 ∧
      w.dbs.seen uid = v.dbs.seen uid ∧
      ∀ c, w.accounts.lookup (accountKey c uid) = v.accounts.lookup (accountKey c uid) := by
  intro v w
  have hv : Sound crypto v := sound_run hcrypto file before
  have hw : Sound crypto w :=
    run_invariant (Sound crypto) (fun _ ev h => h.step hcrypto ev) hv after
  have h : Alike uid v w := alike_run hcrypto haccount hrestart
  refine ⟨h.loadSession hv hw he hcrypto, ?_, h.loadBootstrapCompleted he, h.seen, h.column⟩
  obtain ⟨res, i, j, hi, hj⟩ := h.agree_loadAccessToken hv hw he
  rw [hi, hj]

/-- A login of a second user that fails, and a wipe of that user. -/
theorem answers_isolated_second_user :
    let v := run (vaultStep openCrypto) (Vault.start (fun _ => UserDb.fresh))
      [(.saveLogin "7" (loginOf "seven"), quietEnv 1)]
    let w := run (vaultStep openCrypto) v
      [(.saveLogin "8" (loginOf "eight"), failingEnv "save access token nonce" 2),
        (.wipeUserFull "8", quietEnv 3), (.restart, quietEnv 4)]
    (loadAccessToken openCrypto "7" (quietEnv 5) w).1 = .ok (some "seven") := by
  intro v w
  have hconn : v.dbs.conn "7" = .attached := rfl
  have h := answers_isolated openCrypto_correct (fun _ => UserDb.fresh)
    [(.saveLogin "7" (loginOf "seven"), quietEnv 1)]
    [(.saveLogin "8" (loginOf "eight"), failingEnv "save access token nonce" 2),
      (.wipeUserFull "8", quietEnv 3), (.restart, quietEnv 4)] "7"
    (by simp [VaultOp.account])
    (.inr (fun ⟨db, hdb⟩ => DbConn.noConfusion (hconn.symm.trans hdb)))
    (quietEnv_calm 5)
  exact h.2.1.trans rfl

end Isolation

section Survival

variable {crypto : VaultCrypto} {e : VaultEnv} {v v' : Vault} {uid : String} {b : Bool}

theorem UserDbs.NoLegacy.seen {d : UserDbs} (h : d.NoLegacy uid) :
    (d.seen uid).authSession = none := by
  unfold UserDbs.seen
  cases hconn : d.conn uid with
  | attached => exact h.file
  | unlinked db => exact h.unlinked db hconn
  | closed => exact h.file

/-- The watermark is in the account's own store, and no older version's session is left. -/
structure Recorded (uid : String) (b : Bool) (v : Vault) : Prop where
  flag : v.accountKv uid .bootstrapCompleted = some (boolI32 b)
  noLegacy : v.dbs.NoLegacy uid

/-- What a call that spares the account leaves of what it synchronised. -/
structure KeepsData (uid : String) (b : Bool) (v v' : Vault) : Prop where
  recorded : Recorded uid b v'
  tables : SameData (v.dbs.seen uid).tables (v'.dbs.seen uid).tables
  unlinked : v'.dbs.Unlinked uid ↔ v.dbs.Unlinked uid

theorem Recorded.keeps (h : Recorded uid b v) : KeepsData uid b v v :=
  ⟨h, .refl _, Iff.rfl⟩

theorem KeepsData.trans {v'' : Vault} (h : KeepsData uid b v v')
    (h' : KeepsData uid b v' v'') : KeepsData uid b v v'' :=
  ⟨h'.recorded, h.tables.trans h'.tables, h'.unlinked.trans h.unlinked⟩

/--
The watermark may be written again, the queues of an older version may move into the
outbox, and the files stay.
-/
def Licence.session (b : Bool) : Licence where
  flag := fun b' => b' = b
  tables := SameData
  tables_refl := SameData.refl
  wipe := False

theorem Change.keeps (h : Change crypto uid (Licence.session b) v v')
    (hv : Recorded uid b v) : KeepsData uid b v v' := by
  have hset : ∀ key value, key ≠ .bootstrapCompleted →
      KeepsData uid b v (v.setKey uid key value) := fun key value hne =>
    ⟨⟨(v.setKey_of_ne value (.inr hne.symm)).trans hv.flag, hv.noLegacy⟩, .refl _, Iff.rfl⟩
  cases h with
  | install install _ _ _ => exact ⟨⟨hv.flag, hv.noLegacy⟩, .refl _, Iff.rfl⟩
  | wrapKey wrapped _ => exact hset _ _ (by decide)
  | keyNonce nonce key _ => exact hset _ _ (by decide)
  | flag b' hflag =>
      obtain rfl : b' = b := hflag
      exact ⟨⟨v.setKey_same uid _ _, hv.noLegacy⟩, .refl _, Iff.rfl⟩
  | key key value hplain =>
      refine hset key value ?_
      rintro rfl
      exact hplain
  | account accounts _ _ => exact ⟨⟨hv.flag, hv.noLegacy⟩, .refl _, Iff.rfl⟩
  | dbs d hdbs =>
      exact ⟨⟨hv.flag, hdbs.noLegacy hv.noLegacy⟩, hdbs.tables, hdbs.unlinked⟩
  | current c => exact ⟨⟨hv.flag, hv.noLegacy⟩, .refl _, Iff.rfl⟩
  | wipe hwipe => exact hwipe.elim

theorem Changes.keeps (h : Changes crypto uid (Licence.session b) v v')
    (hv : Recorded uid b v) : KeepsData uid b v v' := by
  induction h with
  | refl => exact hv.keeps
  | tail _ hchange ih => exact ih.trans (hchange.keeps ih.recorded)

theorem Frame.keeps (h : Frame uid v v') (hv : Recorded uid b v) :
    KeepsData uid b v v' := by
  refine ⟨⟨(congrFun h.kv _).trans hv.flag, ?_, ?_⟩, ?_, h.unlinked⟩
  · rw [h.file]
    exact hv.noLegacy.file
  · rw [h.conn]
    exact hv.noLegacy.unlinked
  · rw [h.alike.seen]
    exact .refl _

/-- A login reads the watermark before it writes it. -/
theorem Recorded.saveLogin (hv : Recorded uid b v) (hcrypto : crypto.Correct)
    (login : LoginResult) (e : VaultEnv) :
    Changes crypto uid (Licence.session b) v ((saveLogin crypto uid login).after e v) := by
  have hread : Exec.Ensures (loadBootstrapCompleted uid) e v
      (fun b' v' => b' = b ∧ v' = v) (fun _ v' => v' = v) := by
    unfold loadBootstrapCompleted
    simp only [Exec.ensures_bind]
    refine ensures_stmt ⟨rfl, ensures_stmt ⟨rfl, ?_⟩⟩
    rw [hv.flag]
    cases b <;> exact ⟨rfl, rfl⟩
  have hrest : ∀ b', b' = b →
      Obeys crypto uid (Licence.session b) (loginWith crypto uid login b') :=
    fun b' hb' => obeys_loginWith hcrypto login hb'
  rw [saveLogin_eq]
  unfold Exec.after
  unfold Exec.Ensures at hread
  rw [Exec.bind_run]
  split at hread
  next b' v' hrun =>
    obtain ⟨hb', rfl⟩ := hread
    exact hrest b' hb' e v'
  next err v' hrun =>
    obtain rfl := hread
    exact .refl

/-- A load takes over no session where none of an older version is left. -/
theorem Recorded.loadSession (hv : Recorded uid b v) (crypto : VaultCrypto)
    (e : VaultEnv) :
    Changes crypto uid (Licence.session b) v ((loadSession crypto uid).after e v) := by
  have hobeys : Obeys crypto uid (Licence.session b) (loadSessionFromAccount crypto uid) :=
    obeys_loadSessionFromAccount
  have hown := hobeys e v
  unfold Accounts.loadSession
  unfold Exec.after at hown ⊢
  rw [Exec.bind_run]
  cases hrun : loadSessionFromAccount crypto uid e v with
  | mk res v' =>
  rw [hrun] at hown
  have hlegacy : Exec.Ensures (loadLegacySession uid) e v'
      (fun legacy v'' => legacy = none ∧ Changes crypto uid (Licence.session b) v' v'')
      (fun _ v'' => Changes crypto uid (Licence.session b) v' v'') := by
    have hnone := (hown.keeps hv).recorded.noLegacy.seen
    have hread : Obeys crypto uid (Licence.session b) (loadLegacySession uid) :=
      obeys_loadLegacySession
    have hanswer : Exec.Ensures (loadLegacySession uid) e v'
        (fun legacy _ => legacy = none) (fun _ _ => True) := by
      unfold loadLegacySession withConn
      simp only [Exec.ensures_bind]
      exact ensures_stmt ⟨trivial, ensures_stmt ⟨trivial, by simpa using hnone⟩⟩
    exact ((hread.ensures e v').and hanswer).mono (fun _ _ h => ⟨h.2, h.1⟩) (fun _ _ h => h.1)
  rcases res with err | _ | snapshot
  · exact hown
  · simp only [Exec.bind_run]
    unfold Exec.Ensures at hlegacy
    split at hlegacy
    next legacy v'' hrun' =>
      obtain ⟨rfl, hchanges⟩ := hlegacy
      exact hown.trans hchanges
    next err v'' hrun' => exact hown.trans hlegacy
  · exact hown

/--
Opening the storage of an account moves what an older version left in its queues into the
outbox, with any of its statements failing.
-/
def MovesQueues (f : Store → Store) : Prop :=
  ∃ (faults : Nat → QueueFaults) (queues : List SledQueue), ∀ s,
    f s = (migrateSledQueuesIntoOutbox faults ⟨s, queues⟩).2.store

theorem MovesQueues.sameData {f : Store → Store} (h : MovesQueues f) (s : Store) :
    SameData s (f s) := by
  obtain ⟨faults, queues, hf⟩ := h
  rw [hf]
  exact migrateSledQueues_sameData faults ⟨s, queues⟩

/--
The call neither sets the watermark of the account nor wipes it, and all that it does to
the tables is to move old queues.
-/
def VaultOp.Spares (uid : String) : VaultOp → Prop
  | .setBootstrapCompleted u _ => u ≠ uid
  | .wipeUserFull u => u ≠ uid
  | .tables u f => u = uid → MovesQueues f
  | _ => True

theorem Recorded.step (hcrypto : crypto.Correct) (hv : Recorded uid b v)
    {ev : VaultOp × VaultEnv} (hspares : ev.1.Spares uid) (hrestart : ev.1 ≠ .restart) :
    KeepsData uid b v (vaultStep crypto v ev) := by
  by_cases haccount : ev.1.account = some uid
  · obtain ⟨op, e⟩ := ev
    have hcall : ∀ {α : Type} {x : VaultM α}, Obeys crypto uid (Licence.session b) x →
        KeepsData uid b v (x.after e v) := fun hx => (hx e v).keeps hv
    cases op with
    | saveLogin u login =>
        cases haccount
        exact (hv.saveLogin hcrypto login e).keeps hv
    | setBootstrapCompleted u completed =>
        cases haccount
        exact (hspares rfl).elim
    | loadSession u =>
        cases haccount
        exact (hv.loadSession crypto e).keeps hv
    | loadAccessToken u =>
        cases haccount
        exact hcall obeys_loadAccessToken
    | loadBootstrapCompleted u =>
        cases haccount
        exact hcall obeys_loadBootstrapCompleted
    | clearSession u =>
        cases haccount
        exact hcall obeys_clearSession
    | updateAccessToken u token expiresAt =>
        cases haccount
        exact hcall (obeys_updateAccessToken token expiresAt)
    | saveCurrentUid u => cases haccount
    | clearCurrentUid => cases haccount
    | saveAccountDisplayName u displayName username loginMode loginIdentifier =>
        cases haccount
        exact hcall (obeys_saveAccountDisplayName displayName username loginMode
          loginIdentifier)
    | wipeUserFull u =>
        cases haccount
        exact (hspares rfl).elim
    | tables u f =>
        cases haccount
        exact hcall (obeys_withTables (hspares rfl).sameData)
    | restart => cases haccount
  · exact (frame_step hcrypto v haccount hrestart).keeps hv

/-- A new process keeps the watermark, and the tables if their file has its name. -/
theorem Recorded.restart (hv : Recorded uid b v) :
    Recorded uid b { v with dbs := v.dbs.restart } :=
  ⟨hv.flag, hv.noLegacy.file, nofun⟩

theorem Recorded.run (hcrypto : crypto.Correct) (hv : Recorded uid b v)
    {events : List (VaultOp × VaultEnv)} (hspares : ∀ ev ∈ events, ev.1.Spares uid) :
    Recorded uid b (run (vaultStep crypto) v events) ∧
      ((∀ ev ∈ events, ev.1 ≠ .restart) ∨ ¬ v.dbs.Unlinked uid →
        SameData (v.dbs.seen uid).tables
          ((run (vaultStep crypto) v events).dbs.seen uid).tables) := by
  induction events generalizing v with
  | nil => exact ⟨hv, fun _ => .refl _⟩
  | cons ev events ih =>
      obtain ⟨hev, hevents⟩ := List.forall_mem_cons.mp hspares
      rw [run_cons]
      by_cases hop : ev.1 = .restart
      · have hstep : vaultStep crypto v ev = { v with dbs := v.dbs.restart } := by
          obtain ⟨op, e⟩ := ev
          cases hop
          rfl
        rw [hstep]
        obtain ⟨hrecorded, htables⟩ := ih hv.restart hevents
        refine ⟨hrecorded, fun hcase => ?_⟩
        have hopen : ¬ v.dbs.Unlinked uid :=
          hcase.resolve_left (fun hnone => hnone ev List.mem_cons_self hop)
        have hlater := htables (.inr (v.dbs.restart_linked uid))
        rwa [(alike_restart hopen).seen] at hlater
      · have hkeeps := hv.step hcrypto hev hop
        obtain ⟨hrecorded, htables⟩ := ih hkeeps.recorded hevents
        refine ⟨hrecorded, fun hcase => hkeeps.tables.trans (htables ?_)⟩
        exact hcase.imp (fun hnone e he => hnone e (List.mem_cons_of_mem ev he))
          hkeeps.unlinked.not.mpr

end Survival

section Removal

variable {crypto : VaultCrypto} {v v' : Vault}

/-- A database that was removed while it was open has no file under its name. -/
def Removed (v : Vault) : Prop :=
  ∀ uid, v.dbs.Unlinked uid → v.dbs.file uid = UserDb.fresh

theorem Change.removed {uid : String} {licence : Licence}
    (h : Change crypto uid licence v v') (hv : Removed v) : Removed v' := by
  intro u hu
  by_cases hne : u = uid
  · subst hne
    cases h with
    | dbs d hdbs =>
        have hold := hdbs.unlinked.mp hu
        exact (hdbs.file hold).trans (hv u hold)
    | wipe _ => exact Function.update_self _ _ _
    | install | wrapKey | keyNonce | flag | key | account | current => exact hv u hu
  · have hframe := h.frame hne
    rw [hframe.file]
    exact hv u (hframe.unlinked.mp hu)

theorem Changes.removed {uid : String} {licence : Licence}
    (h : Changes crypto uid licence v v') (hv : Removed v) : Removed v' :=
  h.keep (fun _ _ hchange => hchange.removed) hv

theorem Removed.step (hcrypto : crypto.Correct) (hv : Removed v)
    (ev : VaultOp × VaultEnv) : Removed (vaultStep crypto v ev) := by
  by_cases hrestart : ev.1 = .restart
  · obtain ⟨op, e⟩ := ev
    cases hrestart
    exact fun u hu => (v.dbs.restart_linked u hu).elim
  · have haccount : ∀ u, ev.1.account = some u → u = ev.1.account.getD "" := by
      intro u hu
      rw [hu, Option.getD_some]
    exact (vaultStep_changes hcrypto v haccount hrestart (fun _ => trivial)).removed hv

theorem removed_run (hcrypto : crypto.Correct) (file : String → UserDb)
    (events : List (VaultOp × VaultEnv)) :
    Removed (run (vaultStep crypto) (Vault.start file) events) :=
  run_invariant Removed (fun _ ev h => h.step hcrypto ev)
    (fun u hu => ((Vault.start file).dbs.restart_linked u hu).elim) events

/-- Opening the storage of an account without queues of an older version. -/
def openStorage (s : Store) : Store :=
  (migrateSledQueuesIntoOutbox (fun _ => .calm 5) ⟨s, []⟩).2.store

/-- The statement leaves the databases alone. -/
def SameDbs (s t : Vault) : Prop :=
  t.dbs = s.dbs

theorem sameDbs_stmt {α : Type} {context : String} {f : Vault → α × Vault}
    (hf : ∀ v, (f v).2.dbs = v.dbs) : Exec.Relates SameDbs (stmt context f) := by
  intro e v
  unfold Exec.after stmt
  split
  · rfl
  · exact hf v

theorem sameDbs_bind {α β : Type} {x : VaultM α} {f : α → VaultM β}
    (hx : Exec.Relates SameDbs x) (hf : ∀ a, Exec.Relates SameDbs (f a)) :
    Exec.Relates SameDbs (x >>= f) :=
  Exec.Relates.bind (fun s t u (h : t.dbs = s.dbs) (h' : u.dbs = t.dbs) => h'.trans h) hx hf

theorem sameDbs_pure {α : Type} (a : α) : Exec.Relates SameDbs (pure a : VaultM α) :=
  fun _ _ => rfl

/-- A wipe removes the files, and touches no database afterwards. -/
theorem wipeUserFull_dbs (uid : String) {e : VaultEnv}
    (hremove : e.fault "remove user dir" = false) (v : Vault) :
    ((wipeUserFull uid).after e v).dbs = v.dbs.remove uid := by
  have hclear : Exec.Relates SameDbs (clearActiveUid "remove active uid" uid (pure .unit)) := by
    unfold clearActiveUid
    refine sameDbs_bind (sameDbs_stmt (fun _ => rfl)) (fun active => ?_)
    refine sameDbs_bind (fun _ _ => rfl) (fun active => ?_)
    split
    · exact sameDbs_bind (sameDbs_stmt (fun _ => rfl)) (fun _ => sameDbs_pure _)
    · exact sameDbs_pure _
  have hcurrent : Exec.Relates SameDbs loadCurrentUid :=
    sameDbs_bind (sameDbs_stmt (fun _ => rfl)) (fun _ => sameDbs_pure _)
  unfold wipeUserFull Exec.after
  rw [Exec.bind_run]
  unfold stmt
  rw [hremove, if_neg Bool.false_ne_true]
  -- what follows the removal
  refine Eq.trans (sameDbs_bind (sameDbs_stmt (fun _ => rfl)) (fun _ => ?_) e
    (v.removeUserDir uid)) rfl
  refine sameDbs_bind (sameDbs_stmt (fun _ => rfl)) (fun _ => ?_)
  refine sameDbs_bind (sameDbs_stmt (fun _ => rfl)) (fun _ => ?_)
  refine sameDbs_bind hclear (fun _ => sameDbs_bind (sameDbs_stmt (fun _ => rfl)) ?_)
  refine fun _ => sameDbs_bind hcurrent (fun current => ?_)
  split
  · exact sameDbs_stmt (fun _ => rfl)
  · exact sameDbs_pure _

theorem Change.unlinked {uid : String} {licence : Licence}
    (h : Change crypto uid licence v v') (hv : v.dbs.Unlinked uid) :
    v'.dbs.Unlinked uid := by
  cases h with
  | dbs d hdbs => exact hdbs.unlinked.mpr hv
  | wipe _ =>
      refine (v.dbs.remove_unlinked uid).mpr ?_
      obtain ⟨db, hdb⟩ := hv
      rw [hdb]
      exact nofun
  | install | wrapKey | keyNonce | flag | key | account | current => exact hv

/-- A call that does not wipe an account leaves no file of it without its name. -/
theorem Change.linked {uid : String} (h : Change crypto uid (Licence.any False) v v')
    (hv : ¬ v.dbs.Unlinked uid) : ¬ v'.dbs.Unlinked uid := by
  cases h with
  | dbs d hdbs => exact hdbs.unlinked.not.mpr hv
  | wipe hwipe => exact hwipe.elim
  | install | wrapKey | keyNonce | flag | key | account | current => exact hv

/-- An open connection to a removed file lasts as long as the process. -/
theorem unlinked_run (hcrypto : crypto.Correct) {uid : String} (hv : v.dbs.Unlinked uid)
    {events : List (VaultOp × VaultEnv)} (hrestart : ∀ ev ∈ events, ev.1 ≠ .restart) :
    (run (vaultStep crypto) v events).dbs.Unlinked uid := by
  induction events generalizing v with
  | nil => exact hv
  | cons ev events ih =>
      obtain ⟨hev, hevents⟩ := List.forall_mem_cons.mp hrestart
      rw [run_cons]
      refine ih ?_ hevents
      by_cases haccount : ev.1.account = some uid
      · have hchanges : Changes crypto uid (Licence.any True) v (vaultStep crypto v ev) := by
          refine vaultStep_changes hcrypto v ?_ hev (fun _ => trivial)
          intro u hu
          exact Option.some.inj (hu.symm.trans haccount)
        exact hchanges.keep (fun _ _ hchange => hchange.unlinked) hv
      · exact (frame_step hcrypto v haccount hev).unlinked.mpr hv

theorem linked_run (hcrypto : crypto.Correct) {uid : String} (hv : ¬ v.dbs.Unlinked uid)
    {events : List (VaultOp × VaultEnv)} (hrestart : ∀ ev ∈ events, ev.1 ≠ .restart)
    (hwipe : ∀ ev ∈ events, ev.1 ≠ .wipeUserFull uid) :
    ¬ (run (vaultStep crypto) v events).dbs.Unlinked uid := by
  induction events generalizing v with
  | nil => exact hv
  | cons ev events ih =>
      obtain ⟨hev, hevents⟩ := List.forall_mem_cons.mp hrestart
      obtain ⟨hw, hwipes⟩ := List.forall_mem_cons.mp hwipe
      rw [run_cons]
      refine ih ?_ hevents hwipes
      by_cases haccount : ev.1.account = some uid
      · have hchanges : Changes crypto uid (Licence.any False) v (vaultStep crypto v ev) := by
          refine vaultStep_changes hcrypto v ?_ hev hw
          intro u hu
          exact Option.some.inj (hu.symm.trans haccount)
        exact hchanges.keep (fun _ _ hchange => hchange.linked) hv
      · exact (frame_step hcrypto v haccount hev).unlinked.not.mpr hv

/--
A wipe removes the files of an account but not its open connection.  If one is open, the
calls of the process still see the old database, for as long as the process runs, and
what they write is gone with it; if none is, the database is fresh at once and what is
written to it stays.
-/
theorem wipe_open_database (hcrypto : crypto.Correct) (file : String → UserDb)
    (before after : List (VaultOp × VaultEnv)) (uid : String) (e : VaultEnv)
    (hremove : e.fault "remove user dir" = false)
    (hrestart : ∀ ev ∈ after, ev.1 ≠ .restart) :
    let v := run (vaultStep crypto) (Vault.start file) before
    let wiped := (wipeUserFull uid).after e v
    let w := run (vaultStep crypto) wiped after
    (v.dbs.conn uid ≠ .closed →
      wiped.dbs.seen uid = v.dbs.seen uid ∧ w.dbs.Unlinked uid ∧
        w.dbs.restart.seen uid = UserDb.fresh) ∧
    (v.dbs.conn uid = .closed →
      wiped.dbs.seen uid = UserDb.fresh ∧
      ((∀ ev ∈ after, ev.1 ≠ .wipeUserFull uid) →
        w.dbs.restart.seen uid = w.dbs.seen uid)) := by
  intro v wiped w
  have hdbs : wiped.dbs = v.dbs.remove uid := wipeUserFull_dbs uid hremove v
  have hseen := v.dbs.seen_remove_self uid
  rw [← hdbs] at hseen
  constructor
  · intro hopen
    have hunlinked : wiped.dbs.Unlinked uid := by
      rw [hdbs]
      exact (v.dbs.remove_unlinked uid).mpr hopen
    have hremoved : Removed wiped :=
      (removed_run hcrypto file before).step hcrypto (.wipeUserFull uid, e)
    have hw : Removed w := run_invariant Removed (fun _ ev h => h.step hcrypto ev)
      hremoved after
    have hstays : w.dbs.Unlinked uid := unlinked_run hcrypto hunlinked hrestart
    refine ⟨?_, hstays, hw uid hstays⟩
    rw [hseen]
    cases hconn : v.dbs.conn uid with
    | closed => exact (hopen hconn).elim
    | attached => rfl
    | unlinked db => rfl
  · intro hclosed
    have hlinked : ¬ wiped.dbs.Unlinked uid := by
      rw [hdbs, v.dbs.remove_unlinked uid]
      exact fun hopen => hopen hclosed
    refine ⟨by rw [hseen, hclosed], fun hwipes => ?_⟩
    exact (UserDbs.seen_of_linked (linked_run hcrypto hlinked hrestart hwipes)).symm

/-- The tables written behind a wipe are gone with the process. -/
theorem wipe_open_database_logged_in :
    let v := run (vaultStep openCrypto) (Vault.start (fun _ => UserDb.fresh))
      [(.saveLogin "7" (loginOf "seven"), quietEnv 1)]
    let w := run (vaultStep openCrypto) ((wipeUserFull "7").after (quietEnv 2) v)
      [(.saveLogin "7" (loginOf "again"), quietEnv 3), (.tables "7" id, quietEnv 4)]
    w.dbs.restart.seen "7" = UserDb.fresh := by
  intro v w
  have hconn : v.dbs.conn "7" = .attached := rfl
  have h := wipe_open_database openCrypto_correct (fun _ => UserDb.fresh)
    [(.saveLogin "7" (loginOf "seven"), quietEnv 1)]
    [(.saveLogin "7" (loginOf "again"), quietEnv 3), (.tables "7" id, quietEnv 4)] "7"
    (quietEnv 2) rfl (by simp)
  exact (h.1 (fun hclosed => DbConn.noConfusion (hconn.symm.trans hclosed))).2.2

end Removal

end Accounts
end PrivchatSdk
