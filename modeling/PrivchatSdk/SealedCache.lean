import Mathlib.Data.UInt
import PrivchatSdk.Lib.Exec
import PrivchatSdk.Lib.Run
import PrivchatSdk.OutboundFile

/-!
# The cache of a sealed attachment

An attachment is sealed once: the blob and the metadata beside it, the key and the
digest, are stored for the retries.  The two files are put in place one after the
other, by two writers and through one temporary name, and any step can fail or be the
last one.

A reader takes the pair only if the digest and the decryption agree, so that no mixed
pair is taken; what it takes or stores is what it takes again, until another operation
changes a file or a file cannot be read (`sealOnce_settles`).
-/

namespace PrivchatSdk
namespace Sealing

open EventRun StatementExec

section Crypto

structure SealedCacheMeta where
  cek : String
  sha256 : String
  deriving DecidableEq, Repr

/-- The libraries: AES-256-GCM, base64, SHA-256, and the JSON text of the metadata. -/
structure SealingLib where
  aesEncrypt (key nonce plaintext : Bytes) : Option Bytes
  aesDecrypt (key nonce ciphertext : Bytes) : Option Bytes
  base64Encode : Bytes → String
  base64Decode : String → Option Bytes
  sha256Hex : Bytes → String
  metaText : SealedCacheMeta → Bytes
  readMeta : Bytes → Option SealedCacheMeta

/-- What comes from the random generator. -/
structure SealDraw where
  cek : Vector UInt8 32
  nonce : Vector UInt8 12
  deriving DecidableEq, Repr

/-- The libraries read back what they wrote. -/
structure SealingLib.Correct (lib : SealingLib) : Prop where
  aes : ∀ (draw : SealDraw) (plaintext ciphertext : Bytes),
    lib.aesEncrypt draw.cek.toList draw.nonce.toList plaintext = some ciphertext →
      lib.aesDecrypt draw.cek.toList draw.nonce.toList ciphertext = some plaintext
  tag : ∀ (draw : SealDraw) (plaintext ciphertext : Bytes),
    lib.aesEncrypt draw.cek.toList draw.nonce.toList plaintext = some ciphertext →
      ciphertext.length = plaintext.length + 16
  base64 : ∀ bytes, lib.base64Decode (lib.base64Encode bytes) = some bytes
  metadata : ∀ m, lib.readMeta (lib.metaText m) = some m

def nonceLen : Nat := 12
def tagLen : Nat := 16
def cekLen : Nat := 32
def minBlobLen : Nat := nonceLen + tagLen

def encryptAttachment (lib : SealingLib) (draw : SealDraw) (plaintext : Bytes) :
    Except String (Bytes × String) :=
  match lib.aesEncrypt draw.cek.toList draw.nonce.toList plaintext with
  | none => .error "attachment encrypt failed"
  | some ciphertext =>
      .ok (draw.nonce.toList ++ ciphertext, lib.base64Encode draw.cek.toList)

def decryptAttachment (lib : SealingLib) (blob : Bytes) (cekB64 : String) :
    Except String Bytes :=
  if blob.length < minBlobLen then
    .error ("attachment blob too short: " ++ toString blob.length ++ " < " ++
      toString minBlobLen)
  else
    match lib.base64Decode cekB64 with
    | none => .error "cek is not valid base64url"
    | some cek =>
        if cek.length ≠ cekLen then
          .error ("cek must be " ++ toString cekLen ++ " bytes, got " ++
            toString cek.length)
        else
          match lib.aesDecrypt cek (blob.take nonceLen) (blob.drop nonceLen) with
          | none => .error "attachment decrypt/auth failed"
          | some plaintext => .ok plaintext

/-- The blob, its key and its digest. -/
structure Sealed where
  blob : Bytes
  cek : String
  sha256 : String
  deriving DecidableEq, Repr

def sealForUpload (lib : SealingLib) (draw : SealDraw) (plaintext : Bytes) :
    Except SendError Sealed :=
  match encryptAttachment lib draw plaintext with
  | .error e => .error (.serialization ("attachment encrypt failed: " ++ e))
  | .ok (blob, cek) => .ok ⟨blob, cek, lib.sha256Hex blob⟩

/-- The triple opens to the plaintext, and has the digest of its blob. -/
def Sealed.Opens (lib : SealingLib) (plaintext : Bytes) (x : Sealed) : Prop :=
  decryptAttachment lib x.blob x.cek = .ok plaintext ∧ x.sha256 = lib.sha256Hex x.blob

end Crypto

section Disk

/--
The files of one cache path: `body.sealed`, `body.sealed.json` and `body.sealed.tmp`,
which is the temporary name for both of them.
-/
structure SealedDir where
  cache : Option Bytes
  sealedJson : Option Bytes
  sealedTmp : Option Bytes
  deriving DecidableEq, Repr

/-- How a file operation ends. -/
inductive IoOutcome where
  | done
  | refused (e : String)
  /-- The process ends before the operation. -/
  | crashed
  deriving DecidableEq, Repr

/-- The outcomes of the file operations of a call. -/
structure SealFaults where
  readCache : IoOutcome
  readMeta : IoOutcome
  removeMeta : IoOutcome
  writeBlob : IoOutcome
  renameBlob : IoOutcome
  writeMeta : IoOutcome
  renameMeta : IoOutcome
  removeTmp : IoOutcome
  removeCache : IoOutcome
  deriving DecidableEq, Repr

inductive SealStop where
  | crashed
  | err (e : SendError)
  deriving DecidableEq, Repr

abbrev DiskM := Exec SealFaults SealedDir SealStop

/-- A file operation, with the error it returns if it returns one. -/
def fileOp (outcome : SealFaults → IoOutcome) (op : SealedDir → Except String SealedDir) :
    DiskM (Option String) :=
  fun faults d =>
    match outcome faults with
    | .crashed => (.error .crashed, d)
    | .refused e => (.ok (some e), d)
    | .done =>
        match op d with
        | .error e => (.ok (some e), d)
        | .ok d' => (.ok none, d')

def readFile (outcome : SealFaults → IoOutcome) (file : SealedDir → Option Bytes) :
    DiskM (Option Bytes) :=
  fun faults d =>
    match outcome faults with
    | .crashed => (.error .crashed, d)
    | .refused _ => (.ok none, d)
    | .done => (.ok (file d), d)

def removeMeta : DiskM (Option String) :=
  fileOp SealFaults.removeMeta (fun d => .ok { d with sealedJson := none })

def removeCache : DiskM (Option String) :=
  fileOp SealFaults.removeCache (fun d => .ok { d with cache := none })

def removeTmp : DiskM (Option String) :=
  fileOp SealFaults.removeTmp (fun d => .ok { d with sealedTmp := none })

/-- `fs::write` to the temporary name and `fs::rename` from it. -/
def writeAndRename (write rename : SealFaults → IoOutcome)
    (place : Bytes → SealedDir → SealedDir) (bytes : Bytes) : DiskM (Option String) := do
  let refused ← fileOp write (fun d => .ok { d with sealedTmp := some bytes })
  match refused with
  | some e => pure (some e)
  | none =>
      fileOp rename (fun d =>
        match d.sealedTmp with
        | none => .error "No such file or directory"
        | some content => .ok (place content { d with sealedTmp := none }))

def writeBlob : Bytes → DiskM (Option String) :=
  writeAndRename SealFaults.writeBlob SealFaults.renameBlob
    (fun content d => { d with cache := some content })

def writeMeta : Bytes → DiskM (Option String) :=
  writeAndRename SealFaults.writeMeta SealFaults.renameMeta
    (fun content d => { d with sealedJson := some content })

end Disk

section Calls

variable (lib : SealingLib)

/-- The pair that stands in the cache, if it is one of the plaintext. -/
def cachedSeal (plaintext : Bytes) (blob metaRaw : Option Bytes) : Option Sealed := do
  let blob ← blob
  let metaRaw ← metaRaw
  let m ← lib.readMeta metaRaw
  if blob ≠ [] ∧ lib.sha256Hex blob = m.sha256 ∧
      decryptAttachment lib blob m.cek = .ok plaintext then
    some ⟨blob, m.cek, m.sha256⟩
  else
    none

/-- First the old mark away, then the blob, and the new mark last. -/
def storeSealed (x : Sealed) : DiskM Sealed := do
  let _ ← removeMeta
  let refused ← writeBlob x.blob
  match refused with
  | some e => Exec.fail (.err (.storage ("write sealed cache failed: " ++ e)))
  | none =>
      let refused ← writeMeta (lib.metaText ⟨x.cek, x.sha256⟩)
      match refused with
      | some e => Exec.fail (.err (.storage ("write sealed meta failed: " ++ e)))
      | none => pure x

def sealOnce (draw : SealDraw) (plaintext : Bytes) : DiskM Sealed := do
  let blob ← readFile SealFaults.readCache SealedDir.cache
  let metaRaw ← readFile SealFaults.readMeta SealedDir.sealedJson
  match cachedSeal lib plaintext blob metaRaw with
  | some x => pure x
  | none =>
      match sealForUpload lib draw plaintext with
      | .error e => Exec.fail (.err e)
      | .ok x => storeSealed lib x

def dropSealedCache : DiskM PUnit := do
  let _ ← removeCache
  let _ ← removeMeta
  pure PUnit.unit

/-- What `prune_sealed_caches` does with this path. -/
def pruneSealedCache (expired : Bool) : DiskM PUnit := do
  let cache ← readFile SealFaults.readCache SealedDir.cache
  if cache.isSome ∧ expired then
    dropSealedCache
  else
    pure PUnit.unit

/-- The download's writer; it reports no error. -/
def writeSealedCache (blob : Bytes) (cek : String) : DiskM PUnit := do
  let _ ← removeMeta
  let refused ← writeBlob blob
  match refused with
  | some _ =>
      let _ ← removeTmp
      pure PUnit.unit
  | none =>
      let refused ← writeMeta (lib.metaText ⟨cek, lib.sha256Hex blob⟩)
      match refused with
      | some _ =>
          let _ ← removeTmp
          let _ ← removeCache
          pure PUnit.unit
      | none => pure PUnit.unit

inductive CacheOp where
  | sealOnce (draw : SealDraw) (plaintext : Bytes)
  | writeSealedCache (blob : Bytes) (cek : String)
  | dropSealedCache
  | pruneSealedCache (expired : Bool)
  deriving DecidableEq, Repr

/-- One operation on the cache path, whether it returns or crashes. -/
def cacheStep (d : SealedDir) (e : CacheOp × SealFaults) : SealedDir :=
  match e.1 with
  | .sealOnce draw plaintext => (Sealing.sealOnce lib draw plaintext).after e.2 d
  | .writeSealedCache blob cek => (Sealing.writeSealedCache lib blob cek).after e.2 d
  | .dropSealedCache => Sealing.dropSealedCache.after e.2 d
  | .pruneSealedCache expired => (Sealing.pruneSealedCache expired).after e.2 d

/-- The call can read the two files. -/
def SealFaults.ReadsFiles (faults : SealFaults) : Prop :=
  faults.readCache = .done ∧ faults.readMeta = .done

/-- Another seal of the plaintext that can read the files, or nothing that changes them. -/
def Keeps (plaintext : Bytes) (d : SealedDir) (e : CacheOp × SealFaults) : Prop :=
  (∃ draw, e.1 = .sealOnce draw plaintext) ∧ e.2.ReadsFiles ∨
    (cacheStep lib d e).cache = d.cache ∧ (cacheStep lib d e).sealedJson = d.sealedJson

end Calls

section Reading

variable {lib : SealingLib} {plaintext : Bytes}

theorem cachedSeal_eq_some {blob metaRaw : Option Bytes} {x : Sealed} :
    cachedSeal lib plaintext blob metaRaw = some x ↔
      ∃ raw, blob = some x.blob ∧ metaRaw = some raw ∧
        lib.readMeta raw = some ⟨x.cek, x.sha256⟩ ∧ x.blob ≠ [] ∧ x.Opens lib plaintext := by
  constructor
  · intro h
    obtain ⟨b, rfl, h⟩ := Option.bind_eq_some_iff.mp h
    obtain ⟨raw, rfl, h⟩ := Option.bind_eq_some_iff.mp h
    obtain ⟨m, hm, h⟩ := Option.bind_eq_some_iff.mp h
    split at h
    · rename_i hcheck
      cases h
      exact ⟨raw, rfl, rfl, hm, hcheck.1, hcheck.2.2, hcheck.2.1.symm⟩
    · cases h
  · rintro ⟨raw, rfl, rfl, hm, hne, hopen, hsha⟩
    have hcheck : x.blob ≠ [] ∧ lib.sha256Hex x.blob = x.sha256 ∧
        decryptAttachment lib x.blob x.cek = .ok plaintext := ⟨hne, hsha.symm, hopen⟩
    simp [cachedSeal, hm, hcheck]

/-- What the encryption makes is accepted by the reader. -/
theorem sealForUpload_opens
    (hlib : lib.Correct) {draw : SealDraw} {x : Sealed}
    (h : sealForUpload lib draw plaintext = .ok x) :
    x.blob ≠ [] ∧ x.Opens lib plaintext := by
  cases hct : lib.aesEncrypt draw.cek.toList draw.nonce.toList plaintext with
  | none =>
      simp [sealForUpload, encryptAttachment, hct] at h
  | some ciphertext =>
      simp only [sealForUpload, encryptAttachment, hct] at h
      cases h
      have hnonce : draw.nonce.toList.length = nonceLen := by
        simp [nonceLen]
      have hcek : draw.cek.toList.length = cekLen := by
        simp [cekLen]
      have htag := hlib.tag draw plaintext ciphertext hct
      have hlength : ¬ (draw.nonce.toList ++ ciphertext).length < minBlobLen := by
        rw [List.length_append, hnonce, htag, minBlobLen, tagLen]
        omega
      refine ⟨?_, ?_, rfl⟩
      · intro hempty
        rw [List.append_eq_nil_iff.mp hempty |>.1] at hnonce
        exact absurd hnonce (by decide)
      · simp only [decryptAttachment, if_neg hlength, hlib.base64]
        rw [if_neg (not_not.mpr hcek), List.take_left' hnonce, List.drop_left' hnonce,
          hlib.aes draw plaintext ciphertext hct]

end Reading

section Writing

variable {faults : SealFaults} {d d' : SealedDir}

theorem fileOp_done {outcome : SealFaults → IoOutcome}
    {op : SealedDir → Except String SealedDir}
    (h : fileOp outcome op faults d = (.ok none, d')) : op d = .ok d' := by
  unfold fileOp at h
  split at h
  · cases h
  · cases h
  · cases hop : op d with
    | error e =>
        simp [hop] at h
    | ok d₁ =>
        rw [hop] at h
        cases h
        rfl

/-- A file that was written and renamed stands in its place. -/
theorem writeAndRename_done {write rename : SealFaults → IoOutcome}
    {place : Bytes → SealedDir → SealedDir} {bytes : Bytes}
    (h : writeAndRename write rename place bytes faults d = (.ok none, d')) :
    d' = place bytes { d with sealedTmp := none } := by
  obtain ⟨refused, d₁, hwrite, hrest⟩ := Exec.bind_ok.mp h
  cases refused with
  | some e =>
      cases hrest
  | none =>
      cases fileOp_done hwrite
      cases fileOp_done hrest
      rfl

/-- A triple that was stored stands in the cache. -/
theorem storeSealed_done {lib : SealingLib} {x y : Sealed}
    (h : storeSealed lib x faults d = (.ok y, d')) :
    y = x ∧ d'.cache = some x.blob ∧
      d'.sealedJson = some (lib.metaText ⟨x.cek, x.sha256⟩) := by
  obtain ⟨_, d₁, -, hrest⟩ := Exec.bind_ok.mp h
  obtain ⟨refused, d₂, hblob, hrest⟩ := Exec.bind_ok.mp hrest
  cases refused with
  | some e =>
      cases hrest
  | none =>
      obtain ⟨refused, d₃, hmeta, hrest⟩ := Exec.bind_ok.mp hrest
      cases refused with
      | some e =>
          cases hrest
      | none =>
          cases hrest
          cases writeAndRename_done hblob
          cases writeAndRename_done hmeta
          exact ⟨rfl, rfl, rfl⟩

end Writing

section Settled

variable {lib : SealingLib} {plaintext : Bytes} {x : Sealed} {d d' : SealedDir}
  {faults : SealFaults}

/-- A reader of the plaintext takes the triple. -/
def InCache (lib : SealingLib) (plaintext : Bytes) (x : Sealed) (d : SealedDir) : Prop :=
  cachedSeal lib plaintext d.cache d.sealedJson = some x

theorem sealOnce_of_inCache
    (hx : InCache lib plaintext x d) (hreads : faults.ReadsFiles) (draw : SealDraw) :
    sealOnce lib draw plaintext faults d = (.ok x, d) := by
  have hcache : readFile SealFaults.readCache SealedDir.cache faults d =
      (.ok d.cache, d) := by
    simp only [readFile, hreads.1]
  have hmeta : readFile SealFaults.readMeta SealedDir.sealedJson faults d =
      (.ok d.sealedJson, d) := by
    simp only [readFile, hreads.2]
  refine Exec.bind_ok.mpr ⟨_, _, hcache, Exec.bind_ok.mpr ⟨_, _, hmeta, ?_⟩⟩
  rw [show cachedSeal lib plaintext d.cache d.sealedJson = some x from hx]
  rfl

theorem readFile_state {outcome : SealFaults → IoOutcome}
    {file : SealedDir → Option Bytes} {content : Option Bytes}
    (h : readFile outcome file faults d = (.ok content, d')) :
    d' = d ∧ (content = none ∨ content = file d) := by
  unfold readFile at h
  split at h
  · cases h
  · cases h
    exact ⟨rfl, Or.inl rfl⟩
  · cases h
    exact ⟨rfl, Or.inr rfl⟩

/-- A triple that a call returns is one of the plaintext, and stands in the cache. -/
theorem sealOnce_ok
    (hlib : lib.Correct) {draw : SealDraw}
    (h : sealOnce lib draw plaintext faults d = (.ok x, d')) :
    x.Opens lib plaintext ∧ InCache lib plaintext x d' := by
  obtain ⟨blob, d₁, hreadBlob, hread⟩ := Exec.bind_ok.mp h
  obtain ⟨metaRaw, d₂, hreadMeta, hrest⟩ := Exec.bind_ok.mp hread
  obtain ⟨rfl, hblob⟩ := readFile_state hreadBlob
  obtain ⟨rfl, hmeta⟩ := readFile_state hreadMeta
  cases hcached : cachedSeal lib plaintext blob metaRaw with
  | some y =>
      rw [hcached] at hrest
      cases hrest
      obtain ⟨raw, rfl, rfl, hm, hne, hopens⟩ := cachedSeal_eq_some.mp hcached
      have hblob := hblob.resolve_left (Option.some_ne_none _)
      have hmeta := hmeta.resolve_left (Option.some_ne_none _)
      exact ⟨hopens, cachedSeal_eq_some.mpr ⟨raw, hblob.symm, hmeta.symm, hm, hne, hopens⟩⟩
  | none =>
      rw [hcached] at hrest
      cases hseal : sealForUpload lib draw plaintext with
      | error e =>
          simp only [hseal] at hrest
          cases hrest
      | ok y =>
          simp only [hseal] at hrest
          obtain ⟨rfl, hcache, hjson⟩ := storeSealed_done hrest
          obtain ⟨hne, hopens⟩ := sealForUpload_opens hlib hseal
          exact ⟨hopens, cachedSeal_eq_some.mpr
            ⟨_, hcache, hjson, hlib.metadata ⟨x.cek, x.sha256⟩, hne, hopens⟩⟩

theorem inCache_cacheStep
    (hx : InCache lib plaintext x d) {e : CacheOp × SealFaults}
    (hkeeps : Keeps lib plaintext d e) : InCache lib plaintext x (cacheStep lib d e) := by
  rcases hkeeps with ⟨⟨draw, hop⟩, hreads⟩ | ⟨hcache, hjson⟩
  · have hstep : cacheStep lib d e = d := by
      simp only [cacheStep, hop, Exec.after, sealOnce_of_inCache hx hreads draw]
    rwa [hstep]
  · rwa [InCache, hcache, hjson]

/--
From any state of the directory, a triple that `seal_once` returns opens to the
plaintext and has its blob's digest; and as long as no other operation changes the two
files and no call fails to read them, every call with the plaintext returns it again.
-/
theorem sealOnce_settles
    {lib : SealingLib} (hlib : lib.Correct) (d : SealedDir) (draw : SealDraw)
    (plaintext : Bytes) (faults : SealFaults) {x : Sealed} {d' : SealedDir}
    (h : sealOnce lib draw plaintext faults d = (.ok x, d')) :
    x.Opens lib plaintext ∧
      ∀ es : List (CacheOp × SealFaults),
        Guarded (cacheStep lib) (Keeps lib plaintext) d' es →
        ∀ (draw' : SealDraw) (faults' : SealFaults), faults'.ReadsFiles →
          (sealOnce lib draw' plaintext faults' (run (cacheStep lib) d' es)).1 = .ok x := by
  obtain ⟨hopens, hcache⟩ := sealOnce_ok hlib h
  refine ⟨hopens, ?_⟩
  intro es hes draw' faults' hreads
  have hend := hes.invariant (InCache lib plaintext x)
    (fun d e hd he => inCache_cacheStep hd he) hcache
  rw [sealOnce_of_inCache hend hreads draw']

end Settled

section Samples

def charBytes (c : Char) : Bytes :=
  [1, UInt8.ofNat (c.toNat / 65536), UInt8.ofNat (c.toNat / 256), UInt8.ofNat c.toNat]

def readChars : Bytes → Option (List Char × Bytes)
  | 0 :: rest => some ([], rest)
  | 1 :: high :: middle :: low :: rest =>
      (readChars rest).map (fun p =>
        (Char.ofNat (high.toNat * 65536 + middle.toNat * 256 + low.toNat) :: p.1, p.2))
  | _ => none

theorem char_lt (c : Char) : c.toNat < 1114112 := by
  rcases c.valid with h | ⟨-, h⟩
  · exact Nat.lt_trans h (by decide)
  · exact h

theorem byte_char (b : UInt8) : UInt8.ofNat (Char.ofNat b.toNat).toNat = b := by
  have hb : b.toNat < 256 := b.toNat_lt
  have hvalid : b.toNat.isValidChar := Or.inl (by omega)
  have hchar : (Char.ofNat b.toNat).toNat = b.toNat := by
    rw [Char.ofNat, dif_pos hvalid]
    rfl
  rw [hchar, UInt8.ofNat_toNat]

theorem readChars_charBytes (cs : List Char) (rest : Bytes) :
    readChars (cs.flatMap charBytes ++ 0 :: rest) = some (cs, rest) := by
  induction cs with
  | nil =>
      rfl
  | cons c cs ih =>
      have hc := char_lt c
      have hsum : c.toNat / 65536 % 256 * 65536 + c.toNat / 256 % 256 * 256 +
          c.toNat % 256 = c.toNat := by
        omega
      simp [charBytes, readChars, ih, hsum]

/-- Libraries whose cipher puts the beginning of the key behind the plaintext. -/
def sampleLib : SealingLib where
  aesEncrypt key _ plaintext := some (plaintext ++ (key ++ List.replicate 16 0).take 16)
  aesDecrypt key _ ciphertext :=
    if ciphertext.drop (ciphertext.length - 16) = (key ++ List.replicate 16 0).take 16 then
      some (ciphertext.take (ciphertext.length - 16))
    else
      none
  base64Encode bytes := String.ofList (bytes.map (fun b => Char.ofNat b.toNat))
  base64Decode text := some (text.toList.map (fun c => UInt8.ofNat c.toNat))
  sha256Hex bytes := String.ofList (bytes.map (fun b => Char.ofNat b.toNat))
  metaText m :=
    m.cek.toList.flatMap charBytes ++ 0 :: (m.sha256.toList.flatMap charBytes ++ [0])
  readMeta bytes := do
    let (cek, rest) ← readChars bytes
    let (sha256, _) ← readChars rest
    some ⟨String.ofList cek, String.ofList sha256⟩

theorem sampleLib_correct : sampleLib.Correct where
  aes draw plaintext ciphertext h := by
    cases h
    simp [sampleLib]
  tag draw plaintext ciphertext h := by
    cases h
    simp
  base64 bytes := by
    simp only [sampleLib, String.toList_ofList, List.map_map]
    exact congrArg some ((List.map_congr_left (fun b _ => byte_char b)).trans (List.map_id _))
  metadata m := by
    simp [sampleLib, readChars_charBytes]

def calmDisk : SealFaults :=
  ⟨.done, .done, .done, .done, .done, .done, .done, .done, .done⟩

def sampleDraw (b : UInt8) : SealDraw :=
  ⟨Vector.replicate 32 b, Vector.replicate 12 b⟩

/-- What `seal_once` makes of the byte 7 with the sample key `b`. -/
def sampleSealed (b : UInt8) : Sealed where
  blob := List.replicate 12 b ++ 7 :: List.replicate 16 b
  cek := sampleLib.base64Encode (List.replicate 32 b)
  sha256 := sampleLib.sha256Hex (List.replicate 12 b ++ 7 :: List.replicate 16 b)

theorem sealOnce_sample :
    sealOnce sampleLib (sampleDraw 1) [7] calmDisk ⟨none, none, none⟩ =
      (.ok (sampleSealed 1), (sealOnce sampleLib (sampleDraw 1) [7] calmDisk
        ⟨none, none, none⟩).2) := by
  refine Prod.ext ?_ rfl
  decide +kernel

theorem sealOnce_settles_sample :
    (sampleSealed 1).Opens sampleLib [7] ∧
      (sealOnce sampleLib (sampleDraw 3) [7] calmDisk
        (run (cacheStep sampleLib)
          (sealOnce sampleLib (sampleDraw 1) [7] calmDisk ⟨none, none, none⟩).2
          [(.sealOnce (sampleDraw 2) [7], calmDisk)])).1 = .ok (sampleSealed 1) := by
  obtain ⟨hopens, hagain⟩ := sealOnce_settles sampleLib_correct ⟨none, none, none⟩
    (sampleDraw 1) [7] calmDisk sealOnce_sample
  exact ⟨hopens, hagain [(.sealOnce (sampleDraw 2) [7], calmDisk)]
    ⟨Or.inl ⟨⟨sampleDraw 2, rfl⟩, rfl, rfl⟩, trivial⟩ (sampleDraw 3) calmDisk ⟨rfl, rfl⟩⟩

/--
A download of the same plaintext under another key puts another triple in the place of
the one that `seal_once` returned.
-/
theorem sealOnce_overwritten :
    sampleLib.Correct ∧
      let first := sealOnce sampleLib (sampleDraw 1) [7] calmDisk ⟨none, none, none⟩
      let overwritten := cacheStep sampleLib first.2
        (.writeSealedCache (sampleSealed 2).blob (sampleSealed 2).cek, calmDisk)
      first.1 = .ok (sampleSealed 1) ∧
        decryptAttachment sampleLib (sampleSealed 2).blob (sampleSealed 2).cek = .ok [7] ∧
        (sealOnce sampleLib (sampleDraw 1) [7] calmDisk overwritten).1 =
          .ok (sampleSealed 2) ∧
        sampleSealed 1 ≠ sampleSealed 2 := by
  refine ⟨sampleLib_correct, ?_⟩
  decide +kernel

end Samples

end Sealing
end PrivchatSdk
