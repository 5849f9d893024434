import Mathlib.Data.List.AList
import PrivchatSdk.VaultRuns

/-!
# The list of the local accounts

The account switcher shows `list_local_accounts`: a scan of the accounts tree that picks
the keys of the latest logins and looks up the other columns of each account.  Behind
every run of calls the list is the accounts of the registry that logged in and were not
wiped since, each once, in the order of the latest login.
-/

namespace PrivchatSdk
namespace Accounts

open StatementExec
open EventRun

section Entries

variable {crypto : VaultCrypto} {v : Vault} {r : Registry}

/-- The line of the account switcher for an account. -/
def Registry.entry (r : Registry) (uid : String) : Option LocalAccountEntry :=
  (r.account uid).login.map (fun login =>
    { uid := uid
      createdAt := login.1
      lastLoginAt := login.2
      displayName := nonBlank (r.account uid).displayName
      username := nonBlank (r.account uid).username
      loginMode := nonBlank (r.account uid).loginMode
      loginIdentifier := nonBlank (r.account uid).loginIdentifier })

/-- What the scan makes of a key. -/
def Registry.scanned (r : Registry) (item : Sigma (fun _ : String => KvValue)) :
    Option LocalAccountEntry :=
  (uidOfKey item.1).bind r.entry

theorem Registry.entry_uid {uid : String} {x : LocalAccountEntry}
    (h : r.entry uid = some x) : x.uid = uid := by
  unfold Registry.entry at h
  obtain ⟨login, _, rfl⟩ := Option.map_eq_some_iff.mp h
  rfl

theorem Vault.readText_of_lookup {key : String} {value : Option String}
    (h : v.accounts.lookup key = value.map KvValue.text) :
    v.readText key = nonBlank value := by
  unfold Vault.readText nonBlank
  rw [h]
  cases value <;> rfl

/-- The entry that the scan makes for a key. -/
theorem Refines.accountEntry (h : Refines crypto v r)
    {item : Sigma (fun _ : String => KvValue)} (hitem : item ∈ v.accounts.entries) :
    v.accountEntry item = .ok (r.scanned item) := by
  unfold Vault.accountEntry Registry.scanned
  cases huid : uidOfKey item.1 with
  | none => rfl
  | some uid =>
      have hkey := (uidOfKey_eq_some item.1 uid).mp huid
      have hlookup : v.accounts.lookup item.1 = some item.2 :=
        AList.mem_lookup_iff.mpr hitem
      have hlogin := h.column .lastLoginAt uid
      have hcreated := h.column .createdAt uid
      rw [← hkey, hlookup] at hlogin
      simp only [accountKey, Account.column] at hlogin hcreated
      have hname := Vault.readText_of_lookup (h.column .displayName uid)
      have husername := Vault.readText_of_lookup (h.column .username uid)
      have hmode := Vault.readText_of_lookup (h.column .loginMode uid)
      have hidentifier := Vault.readText_of_lookup (h.column .loginIdentifier uid)
      simp only [accountKey] at hname husername hmode hidentifier
      simp only [Option.bind_some, Registry.entry]
      cases htimes : (r.account uid).login with
      | none =>
          rw [htimes] at hlogin
          cases hlogin
      | some login =>
          rw [htimes] at hlogin hcreated
          obtain hvalue := Option.some.inj hlogin
          simp only [Option.map_some] at hcreated
          simp only [hvalue, readI64, hcreated, hname, husername, hmode, hidentifier,
            Option.map_some]

theorem Refines.accountEntries (h : Refines crypto v r)
    (items : List (Sigma (fun _ : String => KvValue)))
    (hitems : ∀ item ∈ items, item ∈ v.accounts.entries) :
    v.accountEntries items = .ok (items.filterMap r.scanned) := by
  induction items with
  | nil => rfl
  | cons item items ih =>
      obtain ⟨hitem, hrest⟩ := List.forall_mem_cons.mp hitems
      unfold Vault.accountEntries
      rw [h.accountEntry hitem, ih hrest]
      cases hentry : r.scanned item with
      | none => rw [List.filterMap_cons_none hentry]
      | some x => rw [List.filterMap_cons_some hentry]

/-- The scan finds an account if the registry has logins of it. -/
theorem Refines.mem_scan (h : Refines crypto v r) (x : LocalAccountEntry) :
    x ∈ v.accounts.entries.filterMap r.scanned ↔ r.entry x.uid = some x := by
  rw [List.mem_filterMap]
  constructor
  · rintro ⟨item, _, hentry⟩
    obtain ⟨uid, _, hx⟩ := Option.bind_eq_some_iff.mp hentry
    rwa [Registry.entry_uid hx]
  · intro hx
    have hcolumn := h.column .lastLoginAt x.uid
    obtain ⟨login, hlogin, _⟩ := Option.map_eq_some_iff.mp hx
    simp only [Account.column, hlogin, Option.map_some] at hcolumn
    refine ⟨⟨_, .i64 login.2⟩, AList.mem_lookup_iff.mp hcolumn, ?_⟩
    unfold Registry.scanned
    rw [(uidOfKey_eq_some _ x.uid).mpr rfl, Option.bind_some, hx]

/-- No account is found twice. -/
theorem scan_nodup (v : Vault) (r : Registry) :
    (v.accounts.entries.filterMap r.scanned).Pairwise (fun x y => x.uid ≠ y.uid) := by
  have hkeys : v.accounts.entries.Pairwise (fun a b => a.1 ≠ b.1) :=
    List.nodupKeys_iff_pairwise.mp v.accounts.nodupKeys
  refine hkeys.filterMap _ ?_
  intro a b hab x hx y hy hxy
  obtain ⟨uid, huid, hentry⟩ := Option.bind_eq_some_iff.mp hx
  obtain ⟨uid', huid', hentry'⟩ := Option.bind_eq_some_iff.mp hy
  refine hab ?_
  rw [(uidOfKey_eq_some _ _).mp huid, (uidOfKey_eq_some _ _).mp huid',
    ← Registry.entry_uid hentry, ← Registry.entry_uid hentry', hxy]

end Entries

section Order

/-- The latest login first; the uid decides between equal times. -/
def LocalAccountEntry.Before (a b : LocalAccountEntry) : Prop :=
  b.lastLoginAt < a.lastLoginAt ∨ a.lastLoginAt = b.lastLoginAt ∧ a.uid < b.uid

theorem LocalAccountEntry.before_trans (a b c : LocalAccountEntry)
    (hab : a.before b = true) (hbc : b.before c = true) : a.before c = true := by
  simp only [before, decide_eq_true_eq] at *
  rcases hab with hab | ⟨hab, huid⟩
  · rcases hbc with hbc | ⟨hbc, _⟩
    · exact .inl (hbc.trans hab)
    · exact .inl (hbc ▸ hab)
  · rcases hbc with hbc | ⟨hbc, huid'⟩
    · exact .inl (hab ▸ hbc)
    · exact .inr ⟨hab.trans hbc, String.le_trans huid huid'⟩

theorem LocalAccountEntry.before_total (a b : LocalAccountEntry) :
    (a.before b || b.before a) = true := by
  simp only [before, Bool.or_eq_true, decide_eq_true_eq]
  rcases lt_trichotomy a.lastLoginAt b.lastLoginAt with hlt | heq | hlt
  · exact .inr (.inl hlt)
  · rcases String.le_total a.uid b.uid with hle | hle
    · exact .inl (.inr ⟨heq, hle⟩)
    · exact .inr (.inr ⟨heq.symm, hle⟩)
  · exact .inl (.inl hlt)

theorem LocalAccountEntry.before_of_ne {a b : LocalAccountEntry} (h : a.before b = true)
    (hne : a.uid ≠ b.uid) : a.Before b := by
  simp only [before, decide_eq_true_eq] at h
  rcases h with h | ⟨heq, hle⟩
  · exact .inl h
  · refine .inr ⟨heq, String.not_le.mp ?_⟩
    exact fun hge => hne (String.le_antisymm hle hge)

/-- Accounts that differ in their uid stand in the order of their logins when sorted. -/
theorem sorted_accounts {l : List LocalAccountEntry}
    (hnodup : l.Pairwise (fun x y => x.uid ≠ y.uid)) :
    (l.mergeSort LocalAccountEntry.before).Pairwise LocalAccountEntry.Before := by
  have hsorted := List.pairwise_mergeSort LocalAccountEntry.before_trans
    LocalAccountEntry.before_total l
  have hne : (l.mergeSort LocalAccountEntry.before).Pairwise (fun x y => x.uid ≠ y.uid) :=
    (List.mergeSort_perm l _).symm.pairwise hnodup (fun h => h.symm)
  exact hsorted.imp₂ (fun a b hab hne => LocalAccountEntry.before_of_ne hab hne) hne

end Order

section List

variable {crypto : VaultCrypto}

/-- The list of one vault that stands for a registry. -/
theorem Refines.listLocalAccounts {v : Vault} {r : Registry} (h : Refines crypto v r)
    {e : VaultEnv} (he : e.Calm) :
    ∃ l, listLocalAccounts e v = (.ok (r.currentUid, l), v) ∧
      l.Pairwise LocalAccountEntry.Before ∧
      ∀ x, x ∈ l ↔ r.entry x.uid = some x := by
  refine ⟨_, ?_, sorted_accounts (scan_nodup v r), ?_⟩
  · unfold Accounts.listLocalAccounts
    simp only [Exec.bind_run, touch_calm he, h.loadCurrentUid he, stmt_calm he,
      h.accountEntries v.accounts.entries (fun _ hitem => hitem), ofExcept_run,
      Exec.pure_run]
  · intro x
    rw [(List.mergeSort_perm _ _).mem_iff, h.mem_scan]

/--
Behind every run the list of the local accounts holds exactly the accounts that logged
in and were not wiped since, each with the time of its first login, its latest login and
the names it was given last, the latest login first.
-/
theorem listLocalAccounts_entries (hcrypto : crypto.Correct) (file : String → UserDb)
    (events : List (VaultOp × VaultEnv)) (hcalm : ∀ ev ∈ events, ev.2.Calm)
    (e : VaultEnv) (he : e.Calm) :
    let v := run (vaultStep crypto) (Vault.start file) events
    let r := run registryStep (Registry.start file) events
    ∃ l, (listLocalAccounts e v).1 = .ok (r.currentUid, l) ∧
      l.Pairwise LocalAccountEntry.Before ∧
      ∀ x, x ∈ l ↔ r.entry x.uid = some x := by
  intro v r
  obtain ⟨l, hrun, hsorted, hmem⟩ :=
    (refines_run hcrypto file events hcalm).listLocalAccounts he
  exact ⟨l, congrArg Prod.fst hrun, hsorted, hmem⟩

/-- Both users are listed behind the logout of the second one, who stays the current one. -/
theorem listLocalAccounts_entries_two_users :
    let v := run (vaultStep openCrypto) (Vault.start (fun _ => UserDb.fresh)) twoUsers
    let entry := fun (uid : String) (now : Int) => {
      uid := uid, createdAt := now, lastLoginAt := now, displayName := none,
      username := none, loginMode := none, loginIdentifier := none : LocalAccountEntry }
    ∃ l, (listLocalAccounts (quietEnv 6) v).1 = .ok (some "8", l) ∧
      l.Pairwise LocalAccountEntry.Before ∧ entry "7" 1 ∈ l ∧ entry "8" 3 ∈ l := by
  intro v entry
  obtain ⟨l, hlist, hsorted, hmem⟩ := listLocalAccounts_entries openCrypto_correct
    (fun _ => UserDb.fresh) twoUsers twoUsers_calm (quietEnv 6) (quietEnv_calm 6)
  exact ⟨l, hlist.trans rfl, hsorted, (hmem (entry "7" 1)).mpr rfl,
    (hmem (entry "8" 3)).mpr rfl⟩

end List

end Accounts
end PrivchatSdk
