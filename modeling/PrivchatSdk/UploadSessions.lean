import PrivchatSdk.Lib.KeyedStore
import PrivchatSdk.ResumableUpload
import PrivchatSdk.SyncPayload

/-!
# The records of chunked uploads

An upload in chunks keeps the token of its session in a file beside the sealed blob.
The blob can be shared by several messages, so the name of the file is made from the
local message id; what is no ASCII letter or digit in it becomes an underscore.

The files behave as one record for each id exactly if the ids in use are told apart by
these names (`uploadSessions_keptApart_iff`).  A record that is read is used only if
message, user, server and payload are those of the upload.
-/

namespace PrivchatSdk

open EventRun

section Records

structure UploadSessionRecord where
  token : String
  expiresAt : Int
  uploadUrl : String
  plan : UploadPlan
  sealedSha256 : String
  sealedSize : Nat
  userId : Nat
  localMessageId : String
  serverIdentity : String
  deriving DecidableEq, Repr

inductive ReuseVerdict where
  | reusable
  | expired
  | differentUser
  | differentServer
  | differentPayload
  | differentMessage
  deriving DecidableEq, Repr

/-- `eq_ignore_ascii_case`. -/
def eqIgnoreAsciiCase (a b : String) : Bool :=
  a.toList.map Char.toLower == b.toList.map Char.toLower

/-- The upload that asks for a session. -/
structure LiveUpload where
  userId : Nat
  serverIdentity : String
  digest : String
  size : Nat
  localMessageId : String
  deriving DecidableEq, Repr

/-- `reusable_for`. -/
def UploadSessionRecord.reusableFor
    (rec : UploadSessionRecord) (nowSecs : Int) (upload : LiveUpload) : ReuseVerdict :=
  if rec.localMessageId ≠ upload.localMessageId then .differentMessage
  else if rec.expiresAt ≤ nowSecs then .expired
  else if rec.userId ≠ upload.userId then .differentUser
  else if rec.serverIdentity ≠ upload.serverIdentity then .differentServer
  else if eqIgnoreAsciiCase rec.sealedSha256 upload.digest = false ∨
      rec.sealedSize ≠ upload.size then
    .differentPayload
  else .reusable

/-- The record is of this very upload. -/
structure UploadSessionRecord.IsOf
    (rec : UploadSessionRecord) (upload : LiveUpload) : Prop where
  message : rec.localMessageId = upload.localMessageId
  user : rec.userId = upload.userId
  server : rec.serverIdentity = upload.serverIdentity
  digest : eqIgnoreAsciiCase rec.sealedSha256 upload.digest = true
  size : rec.sealedSize = upload.size

theorem UploadSessionRecord.reusableFor_iff
    (rec : UploadSessionRecord) (nowSecs : Int) (upload : LiveUpload) :
    rec.reusableFor nowSecs upload = .reusable ↔
      rec.IsOf upload ∧ nowSecs < rec.expiresAt := by
  unfold reusableFor
  constructor
  · intro h
    split at h
    · cases h
    rename_i hmessage
    split at h
    · cases h
    rename_i hexpires
    split at h
    · cases h
    rename_i huser
    split at h
    · cases h
    rename_i hserver
    split at h
    · cases h
    rename_i hpayload
    push Not at hmessage hexpires huser hserver hpayload
    refine ⟨⟨hmessage, huser, hserver, ?_, hpayload.2⟩, hexpires⟩
    simpa using hpayload.1
  · rintro ⟨⟨hmessage, huser, hserver, hdigest, hsize⟩, hexpires⟩
    simp [hmessage, huser, hserver, hdigest, hsize, hexpires]

end Records

section Names

/-- The part of a file name before its last dot; a leading dot is no such dot. -/
def fileStem (name : String) : String :=
  let before := ((name.toList.reverse.dropWhile (fun c => c != '.')).drop 1).reverse
  if before.isEmpty then name else String.ofList before

/-- The name that `path_for` makes of an id. -/
def safeMessageId (localMessageId : String) : String :=
  String.ofList (localMessageId.toList.map (fun c => if c.isAlphanum then c else '_'))

/-- The file name in `path_for`; `sealedName` is that of the sealed cache. -/
def sessionFileName (sealedName localMessageId : String) : String :=
  fileStem sealedName ++ "." ++ (safeMessageId localMessageId ++ ".upload-session.json")

/-- The temporary file of `store`; process id and time tell two of them apart. -/
def sessionTmpName (stamp : String) : String :=
  ".upload-session-" ++ stamp ++ ".tmp"

theorem sessionFileName_inj {sealedName id id' : String} :
    sessionFileName sealedName id = sessionFileName sealedName id' ↔
      safeMessageId id = safeMessageId id' := by
  unfold sessionFileName
  constructor
  · intro h
    have hlist := congrArg String.toList h
    simp only [String.toList_append] at hlist
    exact String.toList_inj.mp
      (List.append_cancel_right (List.append_cancel_left hlist))
  · intro h
    rw [h]

theorem sessionFileName_ne_tmp (sealedName id stamp : String) :
    sessionFileName sealedName id ≠ sessionTmpName stamp := by
  intro h
  have hlast := congrArg (fun s => s.toList.reverse.head?) h
  simp [sessionFileName, sessionTmpName] at hlast

end Names

section Store

/-- What a file decodes to, if it decodes to a record. -/
abbrev SessionFile : Type :=
  Option UploadSessionRecord

/-- The directory of the sealed cache, file by file. -/
abbrev SessionDir : Type :=
  String → Option SessionFile

/-- Where `store` fails; from the write on the temporary file stays behind. -/
inductive StoreFault where
  | createTmp
  | writeTmp
  | rename
  deriving DecidableEq, Repr

variable (sealedName : String)

/-- `load`. -/
def SessionDir.load (dir : SessionDir) (localMessageId : String) : SessionFile :=
  (dir (sessionFileName sealedName localMessageId)).join

/-- `store`; the temporary file must not be there yet. -/
def SessionDir.store
    (dir : SessionDir) (rec : UploadSessionRecord) (stamp : String)
    (fault : Option StoreFault) : Except Unit Unit × SessionDir :=
  let tmp := sessionTmpName stamp
  if (dir tmp).isSome then
    (.error (), dir)
  else
    match fault with
    | some .createTmp => (.error (), dir)
    | some .writeTmp => (.error (), Function.update dir tmp (some none))
    | some .rename => (.error (), Function.update dir tmp (some (some rec)))
    | none =>
        (.ok (), Function.update
          (Function.update (Function.update dir tmp (some (some rec))) tmp none)
          (sessionFileName sealedName rec.localMessageId) (some (some rec)))

/-- `discard`. -/
def SessionDir.discard (dir : SessionDir) (localMessageId : String) : SessionDir :=
  Function.update dir (sessionFileName sealedName localMessageId) none

/-- The session of a chunked upload. -/
structure ChunkedSession where
  uploadToken : String
  uploadUrl : String
  baseUnit : Nat
  expiresAt : Int
  deriving DecidableEq, Repr

inductive ChunkedPrepared where
  | claim (claimToken : String)
  | session (session : ChunkedSession)
  deriving DecidableEq, Repr

/-- The answer to the request of a chunked upload token. -/
structure ChunkedTokenResponse where
  alreadyExists : Bool
  claimToken : Option String
  uploadToken : Option String
  uploadUrl : Option String
  baseUnit : Option Nat
  expiresAt : Option Int
  deriving DecidableEq, Repr

inductive PrepareError where
  | request
  | serialization (text : String)
  deriving DecidableEq, Repr

/-- What the response says, or the field that it lacks. -/
def ChunkedTokenResponse.prepared (response : ChunkedTokenResponse) :
    Except PrepareError ChunkedPrepared :=
  let nonBlank (text : Option String) := text.filter (fun t => trim t != "")
  if response.alreadyExists then
    match nonBlank response.claimToken with
    | some claimToken => .ok (.claim claimToken)
    | none => .error (.serialization
        "decode file/request_chunked_upload_token: already_exists 却没有 claim_token")
  else
    match nonBlank response.uploadToken, nonBlank response.uploadUrl with
    | none, _ => .error (.serialization
        "decode file/request_chunked_upload_token: missing upload_token")
    | some _, none => .error (.serialization
        "decode file/request_chunked_upload_token: missing upload_url")
    | some uploadToken, some uploadUrl => .ok (.session
        { uploadToken := uploadToken
          uploadUrl := uploadUrl
          baseUnit := (response.baseUnit.filter (fun b => 0 < b)).getD (64 * 1024)
          expiresAt := response.expiresAt.getD 0 })

/-- The record that `prepare_chunked` saves for a new session. -/
def LiveUpload.recordOf (upload : LiveUpload) (session : ChunkedSession) :
    UploadSessionRecord where
  token := session.uploadToken
  expiresAt := session.expiresAt
  uploadUrl := session.uploadUrl
  plan := .forBaseUnit session.baseUnit
  sealedSha256 := upload.digest
  sealedSize := upload.size
  userId := upload.userId
  localMessageId := upload.localMessageId
  serverIdentity := upload.serverIdentity

/-- The session of a record that is used again. -/
def UploadSessionRecord.session (rec : UploadSessionRecord) : ChunkedSession where
  uploadToken := rec.token
  uploadUrl := rec.uploadUrl
  baseUnit := rec.plan.baseUnit
  expiresAt := rec.expiresAt

/-- The record that `prepare_chunked` goes on with, and the directory otherwise. -/
def SessionDir.reuse (dir : SessionDir) (nowSecs : Int) (upload : LiveUpload) :
    UploadSessionRecord ⊕ SessionDir :=
  match dir.load sealedName upload.localMessageId with
  | none => .inr dir
  | some rec =>
      if rec.reusableFor nowSecs upload = .reusable then .inl rec
      else .inr (dir.discard sealedName upload.localMessageId)

/-- `prepare_chunked`; a record that cannot be saved is given up. -/
def SessionDir.prepareChunked
    (dir : SessionDir) (nowSecs : Int) (upload : LiveUpload) (forceUpload : Bool)
    (response : Option ChunkedTokenResponse) (stamp : String)
    (fault : Option StoreFault) : Except PrepareError ChunkedPrepared × SessionDir :=
  match (if forceUpload then .inr dir else dir.reuse sealedName nowSecs upload) with
  | .inl rec => (.ok (.session rec.session), dir)
  | .inr dir =>
      match response with
      | none => (.error .request, dir)
      | some response =>
          match response.prepared with
          | .ok (.session session) =>
              (.ok (.session session),
                (dir.store sealedName (upload.recordOf session) stamp fault).2)
          | other => (other, dir)

/-- A record that is used again is of the very upload, and not expired. -/
theorem SessionDir.reuse_isOf {dir : SessionDir} {nowSecs : Int} {upload : LiveUpload}
    {rec : UploadSessionRecord} (h : dir.reuse sealedName nowSecs upload = .inl rec) :
    dir.load sealedName upload.localMessageId = some rec ∧ rec.IsOf upload ∧
      nowSecs < rec.expiresAt := by
  unfold reuse at h
  split at h
  · cases h
  · rename_i found hload
    split at h
    · rename_i hverdict
      cases h
      obtain ⟨hof, hexpires⟩ := (rec.reusableFor_iff nowSecs upload).mp hverdict
      exact ⟨hload, hof, hexpires⟩
    · cases h

/-- Without an answer of the server only such a record is gone on with. -/
theorem SessionDir.prepareChunked_reused {dir : SessionDir} {nowSecs : Int}
    {upload : LiveUpload} {forceUpload : Bool} {stamp : String}
    {fault : Option StoreFault} {prepared : ChunkedPrepared}
    (h : (dir.prepareChunked sealedName nowSecs upload forceUpload none stamp fault).1 =
      .ok prepared) :
    ∃ rec : UploadSessionRecord, dir.load sealedName upload.localMessageId = some rec ∧
      rec.IsOf upload ∧ prepared = .session rec.session := by
  unfold prepareChunked at h
  split at h
  · rename_i rec hreuse
    cases h
    split at hreuse
    · cases hreuse
    · obtain ⟨hload, hof, -⟩ := reuse_isOf sealedName hreuse
      exact ⟨rec, hload, hof, rfl⟩
  · cases h

end Store

section Runs

/-- What is done with the records beside a sealed cache. -/
inductive SessionOp where
  | save (rec : UploadSessionRecord) (stamp : String) (fault : Option StoreFault)
  | load (localMessageId : String)
  | discard (localMessageId : String)
  deriving DecidableEq, Repr

/-- The id that an operation is about. -/
def SessionOp.id : SessionOp → String
  | .save rec _ _ => rec.localMessageId
  | .load localMessageId => localMessageId
  | .discard localMessageId => localMessageId

variable (sealedName : String)

def SessionDir.step (dir : SessionDir) : SessionOp → SessionDir
  | .save rec stamp fault => (dir.store sealedName rec stamp fault).2
  | .load _ => dir
  | .discard localMessageId => dir.discard sealedName localMessageId

/-- No files yet. -/
def SessionDir.empty : SessionDir :=
  fun _ => none

/-- What an operation does to the map of the ids: a save counts if it returns `Ok`. -/
def SessionDir.mapOp (dir : SessionDir) :
    SessionOp → List (KeyedStore.Op String UploadSessionRecord)
  | .save rec stamp fault =>
      match (dir.store sealedName rec stamp fault).1 with
      | .ok _ => [.put rec.localMessageId rec]
      | .error _ => []
  | .load _ => []
  | .discard localMessageId => [.delete localMessageId]

def SessionDir.mapOps :
    SessionDir → List SessionOp → List (KeyedStore.Op String UploadSessionRecord)
  | _, [] => []
  | dir, op :: ops => dir.mapOp sealedName op ++ mapOps (dir.step sealedName op) ops

/-- The directory after a run, and the map that it should be. -/
def sessionsAfter (ops : List SessionOp) : SessionDir :=
  run (SessionDir.step sealedName) .empty ops

def lastSaved (ops : List SessionOp) : String → Option UploadSessionRecord :=
  run KeyedStore.step (fun _ => none) (SessionDir.mapOps sealedName .empty ops)

/--
The records of these ids are a finite map: what is loaded is the last record that was
saved under the id and not discarded, it is the id's own, and without an answer of the
server an upload goes on only with a record that is its own.
-/
structure KeptApart (ids : Set String) : Prop where
  map : ∀ ops : List SessionOp, (∀ op ∈ ops, op.id ∈ ids) → ∀ id ∈ ids,
    (sessionsAfter sealedName ops).load sealedName id = lastSaved sealedName ops id
  own : ∀ ops : List SessionOp, (∀ op ∈ ops, op.id ∈ ids) → ∀ id ∈ ids, ∀ rec,
    (sessionsAfter sealedName ops).load sealedName id = some rec →
      rec.localMessageId = id
  reused : ∀ (dir : SessionDir) nowSecs (upload : LiveUpload) forceUpload stamp fault
    prepared,
    (dir.prepareChunked sealedName nowSecs upload forceUpload none stamp fault).1 =
        .ok prepared →
      ∃ rec : UploadSessionRecord, dir.load sealedName upload.localMessageId = some rec ∧
        rec.IsOf upload ∧ prepared = .session rec.session

variable {sealedName : String} {dir : SessionDir}

/-- What a store leaves under the names of records. -/
theorem SessionDir.load_store (rec : UploadSessionRecord) (stamp : String)
    (fault : Option StoreFault) (id : String) :
    (dir.store sealedName rec stamp fault).2.load sealedName id =
      match (dir.store sealedName rec stamp fault).1 with
      | .ok _ =>
          if sessionFileName sealedName id =
              sessionFileName sealedName rec.localMessageId then
            some rec
          else
            dir.load sealedName id
      | .error _ => dir.load sealedName id := by
  have hne := sessionFileName_ne_tmp sealedName id stamp
  unfold store load
  dsimp only
  split
  · rfl
  · split
    · rfl
    · simp [hne]
    · simp [hne]
    · by_cases heq : sessionFileName sealedName id =
          sessionFileName sealedName rec.localMessageId
      · rw [heq]
        simp
      · simp [heq, hne]

/-- One operation on the files is the operation on the map, under file names. -/
theorem SessionDir.load_step {t : String → Option UploadSessionRecord}
    (h : ∀ id, t (sessionFileName sealedName id) = dir.load sealedName id)
    (op : SessionOp) (id : String) :
    run KeyedStore.step t ((dir.mapOp sealedName op).map
      (KeyedStore.Op.rename (sessionFileName sealedName))) (sessionFileName sealedName id) =
      (dir.step sealedName op).load sealedName id := by
  cases op with
  | save rec stamp fault =>
      rw [step, load_store, mapOp]
      split
      · simp only [List.map_cons, List.map_nil, run_cons, run_nil, KeyedStore.Op.rename,
          KeyedStore.step, Function.update_apply]
        rw [h]
      · exact h id
  | load localMessageId =>
      exact h id
  | discard localMessageId =>
      simp only [mapOp, List.map_cons, List.map_nil, run_cons, run_nil,
        KeyedStore.Op.rename, KeyedStore.step, Function.update_apply, step, discard, load]
      split
      · rfl
      · exact h id

/-- The run lemma of `load_step`. -/
theorem SessionDir.load_run {t : String → Option UploadSessionRecord}
    (h : ∀ id, t (sessionFileName sealedName id) = dir.load sealedName id)
    (ops : List SessionOp) (id : String) :
    run KeyedStore.step t ((dir.mapOps sealedName ops).map
      (KeyedStore.Op.rename (sessionFileName sealedName))) (sessionFileName sealedName id) =
      (run (step sealedName) dir ops).load sealedName id := by
  induction ops generalizing dir t with
  | nil =>
      exact h id
  | cons op ops ih =>
      rw [mapOps, List.map_append, run_append]
      exact ih (load_step h op)

/-- An operation on the map is about the id of its operation, and saves its record. -/
theorem SessionDir.mem_mapOp {op : SessionOp}
    {op' : KeyedStore.Op String UploadSessionRecord}
    (h : op' ∈ dir.mapOp sealedName op) :
    op' = .delete op.id ∨ ∃ rec, op.id = rec.localMessageId ∧ op' = .put op.id rec := by
  cases op with
  | save rec stamp fault =>
      rw [mapOp] at h
      split at h
      · exact Or.inr ⟨rec, rfl, List.mem_singleton.mp h⟩
      · cases h
  | load localMessageId =>
      cases h
  | discard localMessageId =>
      exact Or.inl (List.mem_singleton.mp h)

theorem SessionDir.mem_mapOps {ops : List SessionOp}
    {op' : KeyedStore.Op String UploadSessionRecord}
    (h : op' ∈ dir.mapOps sealedName ops) :
    ∃ op ∈ ops,
      op' = .delete op.id ∨ ∃ rec, op.id = rec.localMessageId ∧ op' = .put op.id rec := by
  induction ops generalizing dir with
  | nil =>
      cases h
  | cons op ops ih =>
      rw [mapOps, List.mem_append] at h
      rcases h with hop | hops
      · exact ⟨op, List.mem_cons_self, mem_mapOp hop⟩
      · obtain ⟨op, hop, hcases⟩ := ih hops
        exact ⟨op, List.mem_cons_of_mem _ hop, hcases⟩

theorem lastSaved_own {ops : List SessionOp} {id : String} {rec : UploadSessionRecord}
    (h : lastSaved sealedName ops id = some rec) : rec.localMessageId = id := by
  refine KeyedStore.run_forall (P := fun id rec => rec.localMessageId = id) ?_ ?_ id rec h
  · intro _ _ hnone
    cases hnone
  · intro key rec hput
    obtain ⟨op, -, hdelete | ⟨saved, hid, hsaved⟩⟩ := SessionDir.mem_mapOps hput
    · cases hdelete
    · cases hsaved
      exact hid.symm

/-- Where the names tell the ids apart, the files are the map. -/
theorem sessionsAfter_eq {ids : Set String} (hids : Set.InjOn safeMessageId ids)
    {ops : List SessionOp} (hops : ∀ op ∈ ops, op.id ∈ ids) :
    ∀ id ∈ ids,
      (sessionsAfter sealedName ops).load sealedName id = lastSaved sealedName ops id := by
  intro id hid
  have hnames : Set.InjOn (sessionFileName sealedName) ids :=
    fun _ h _ h' heq => hids h h' (sessionFileName_inj.mp heq)
  have hfiles := @SessionDir.load_run sealedName .empty (fun _ => none) (fun _ => rfl)
    ops id
  refine hfiles.symm.trans (KeyedStore.run_rename hnames (fun _ _ => rfl) ?_ id hid)
  intro op' hop'
  obtain ⟨op, hop, rfl | ⟨rec, -, rfl⟩⟩ := SessionDir.mem_mapOps hop'
  · exact hops op hop
  · exact hops op hop

/-- A record of an upload that is about to begin. -/
def freshRecord (localMessageId : String) : UploadSessionRecord where
  token := "token"
  expiresAt := 1000
  uploadUrl := "http://h/files"
  plan := .forBaseUnit 65536
  sealedSha256 := "aa"
  sealedSize := 4096
  userId := 7
  localMessageId := localMessageId
  serverIdentity := "local"

/-- What is saved under one id is loaded under every id with its name. -/
theorem load_of_name {id id' : String} (h : safeMessageId id = safeMessageId id') :
    (sessionsAfter sealedName [.save (freshRecord id) "1" none]).load sealedName id' =
      some (freshRecord id) := by
  have hname : sessionFileName sealedName id' =
      sessionFileName sealedName (freshRecord id).localMessageId :=
    sessionFileName_inj.mpr h.symm
  change (SessionDir.store sealedName .empty (freshRecord id) "1" none).2.load sealedName
    id' = _
  rw [SessionDir.load_store, if_pos hname]
  rfl

theorem KeptApart.injOn {ids : Set String} (h : KeptApart sealedName ids) :
    Set.InjOn safeMessageId ids := by
  intro id hid id' hid' hname
  refine h.own [.save (freshRecord id) "1" none] ?_ id' hid' (freshRecord id)
    (load_of_name hname)
  intro op hop
  rw [List.mem_singleton] at hop
  exact hop ▸ hid

/-- The files are one record for each id exactly if the names tell the ids apart. -/
theorem uploadSessions_keptApart_iff (sealedName : String) (ids : Set String) :
    KeptApart sealedName ids ↔ Set.InjOn safeMessageId ids := by
  constructor
  · exact KeptApart.injOn
  · intro hids
    exact
      { map := fun ops hops id hid => sessionsAfter_eq hids hops id hid
        own := fun ops hops id hid rec hload =>
          lastSaved_own ((sessionsAfter_eq hids hops id hid).symm.trans hload)
        reused := fun _ _ _ _ _ _ _ hprepared =>
          SessionDir.prepareChunked_reused sealedName hprepared }

/-- Two ids that differ in a sign share their record. -/
theorem uploadSessions_collide :
    ¬ KeptApart "body.sealed" {"msg-a", "msg_a"} := by
  intro h
  have heq : safeMessageId "msg-a" = safeMessageId "msg_a" := by decide
  exact absurd (h.injOn (by simp) (by simp) heq) (by decide)

end Runs

end PrivchatSdk
