import Mathlib.Data.List.Sort
import PrivchatSdk.MediaStore

/-!
# Finding the file of an attachment

`payload_filename_with_fallback` names the file of an attachment `payload.{ext}`; for
a type it does not know the extension is that of the user's file.
`find_primary_file` looks into the directory and leaves out what the session itself
puts there: sealed copies, halves of downloads, thumbnails, and every `.json`.

Nothing that the session puts there is called `payload.{ext}`
(`InternalFile.stem_ne`), so the file is found beside any of it, unless its own
extension is `json` (`findPrimaryFile_payload_iff`).
-/

namespace PrivchatSdk

section Names

/-- What is before and after the last dot. -/
def rsplitDot : List Char → Option (List Char × List Char)
  | [] => none
  | c :: cs =>
      match rsplitDot cs with
      | some (before, after) => some (c :: before, after)
      | none => if c = '.' then some ([], cs) else none

theorem rsplitDot_eq_none_iff {cs : List Char} : rsplitDot cs = none ↔ '.' ∉ cs := by
  induction cs with
  | nil =>
      exact iff_of_true rfl List.not_mem_nil
  | cons c cs ih =>
      rw [rsplitDot, List.mem_cons, not_or, ← ih]
      cases rsplitDot cs with
      | some split =>
          simp
      | none =>
          simp [eq_comm]

theorem rsplitDot_append {before after : List Char} (h : '.' ∉ after) :
    rsplitDot (before ++ '.' :: after) = some (before, after) := by
  induction before with
  | nil =>
      rw [List.nil_append, rsplitDot, rsplitDot_eq_none_iff.mpr h]
      exact if_pos rfl
  | cons c before ih =>
      rw [List.cons_append, rsplitDot, ih]

theorem of_rsplitDot_eq_some {cs before after : List Char}
    (h : rsplitDot cs = some (before, after)) :
    cs = before ++ '.' :: after ∧ '.' ∉ after := by
  induction cs generalizing before with
  | nil =>
      cases h
  | cons c cs ih =>
      rw [rsplitDot] at h
      cases hrest : rsplitDot cs with
      | some split =>
          obtain ⟨b, a⟩ := split
          rw [hrest] at h
          cases h
          obtain ⟨rfl, hdot⟩ := ih hrest
          exact ⟨rfl, hdot⟩
      | none =>
          rw [hrest] at h
          dsimp only at h
          split at h
          · rename_i hc
            cases h
            exact ⟨by rw [hc]; rfl, rsplitDot_eq_none_iff.mp hrest⟩
          · cases h

/-- `Path::file_stem` of a file name. -/
def stemOf (name : String) : String :=
  match rsplitDot name.toList with
  | some (before, _) => if before = [] then name else String.ofList before
  | none => name

/-- `Path::extension` of a file name. -/
def extensionOf (name : String) : Option String :=
  match rsplitDot name.toList with
  | some (before, after) => if before = [] then none else some (String.ofList after)
  | none => none

/-- The text behind the last occurrence of another. -/
def afterLast (needle : List Char) : List Char → Option (List Char)
  | [] => if needle = [] then some [] else none
  | c :: cs =>
      match afterLast needle cs with
      | some suffix => some suffix
      | none =>
          if needle.isPrefixOf (c :: cs) then some ((c :: cs).drop needle.length)
          else none

end Names

section Search

/-- A directory entry; its size is missing where it cannot be read. -/
structure DirEntry where
  name : String
  isFile : Bool
  size : Option Nat
  deriving DecidableEq, Repr

def payloadBasename : String := "payload"

/-- `fs::metadata(p).map(|m| m.len()).unwrap_or(0)`. -/
def DirEntry.len (e : DirEntry) : Nat :=
  e.size.getD 0

/-- The entry may be the attachment: it is none of the files of the session. -/
def DirEntry.candidate (e : DirEntry) : Bool :=
  let stem := stemOf e.name
  if !e.isFile then false
  else if extensionOf e.name == some "json" then false
  else if e.name == metaFilename then false
  else if e.name == "body.sealed" || e.name == "body.sealed.tmp" then false
  else if (extensionOf e.name == some "part" || extensionOf e.name == some "tmp") &&
      stem.toList.contains '.' then false
  else if stem == "thumb" || "_thumb".toList.isSuffixOf stem.toList then false
  else
    match afterLast "_thumb_v".toList stem.toList with
    | some suffix => !(!suffix.isEmpty && suffix.all Char.isDigit)
    | none => true

/-- The only candidate, or the largest. -/
def pickLargest : List DirEntry → Option DirEntry
  | [] => none
  | [e] => some e
  | entries => (entries.insertionSort (fun a b => a.len ≤ b.len)).getLast?

/-- `find_primary_file`; there is no listing of a directory that cannot be read. -/
def findPrimaryFile (dir : Path) (listing : Option (List DirEntry)) : Option Path :=
  match listing with
  | none => none
  | some entries =>
      let candidates := entries.filter DirEntry.candidate
      let canonical := candidates.filter (fun e => stemOf e.name == payloadBasename)
      (pickLargest (if canonical.isEmpty then candidates else canonical)).map
        (fun e => dir ++ [e.name])

end Search

section Internal

/-- The files that the session may leave beside an attachment. -/
inductive InternalFile : String → Prop
  | thumb : InternalFile thumbFilename
  | thumbPng : InternalFile "thumb.png"
  | thumbScratch : InternalFile "thumb.src.jpg"
  | thumbPart (ext : String) : InternalFile ("thumb." ++ ext ++ ".part")
  | legacyThumb (messageId : Nat) (ext : String) :
      InternalFile (toString messageId ++ ("_thumb." ++ ext))
  | legacyThumbVersion (messageId version : Nat) (ext : String) :
      InternalFile (toString messageId ++ ("_thumb_v" ++ toString version ++ "." ++ ext))
  | metaJson : InternalFile metaFilename
  | sealedBody (companion : String) : InternalFile ("body.sealed" ++ companion)
  | sealedThumb (companion : String) : InternalFile ("thumb.sealed" ++ companion)
  | uploadSession (safe : String) :
      InternalFile ("body." ++ safe ++ ".upload-session.json")
  | uploadSessionTmp (pid nanos : Nat) :
      InternalFile (".upload-session-" ++ toString pid ++ "-" ++ toString nanos ++ ".tmp")
  | part (mime : String) (originalFilename : Option String) :
      InternalFile (payloadFilenameWithFallback mime originalFilename ++ ".part")
  | decryptedPart : InternalFile "payload.decrypted.part"
  | sealedSidecar (mime : String) (originalFilename : Option String)
      (companion : String) :
      InternalFile (payloadFilenameWithFallback mime originalFilename ++ (".sealed" ++ companion))

/-- A name with this stem is the stem, or the stem with one extension. -/
theorem of_stemOf_eq_payload {name : String} (h : stemOf name = payloadBasename) :
    name.toList = payloadBasename.toList ∨
      ∃ ext, '.' ∉ ext ∧ name.toList = payloadBasename.toList ++ '.' :: ext := by
  unfold stemOf at h
  cases hsplit : rsplitDot name.toList with
  | none =>
      rw [hsplit] at h
      exact Or.inl (congrArg String.toList h)
  | some split =>
      obtain ⟨before, after⟩ := split
      rw [hsplit] at h
      dsimp only at h
      obtain ⟨hname, hdot⟩ := of_rsplitDot_eq_some hsplit
      split at h
      · exact Or.inl (congrArg String.toList h)
      · refine Or.inr ⟨after, hdot, ?_⟩
        rw [hname, ← h, String.toList_ofList]

theorem stemOf_ne_of_head {name : String} (h : name.toList.head? ≠ some 'p') :
    stemOf name ≠ payloadBasename := by
  intro hstem
  apply h
  rcases of_stemOf_eq_payload hstem with hname | ⟨ext, -, hname⟩
  · rw [hname]
    rfl
  · rw [hname]
    rfl

/-- With a second dot the stem is longer. -/
theorem stemOf_ne_of_dots {name : String} (ext rest : List Char)
    (h : name.toList = payloadBasename.toList ++ '.' :: (ext ++ '.' :: rest)) :
    stemOf name ≠ payloadBasename := by
  intro hstem
  rcases of_stemOf_eq_payload hstem with hname | ⟨ext', hdot, hname⟩
  · rw [h] at hname
    have hlength := congrArg List.length hname
    simp at hlength
  · rw [h] at hname
    have htail := List.append_cancel_left hname
    obtain rfl := List.tail_eq_of_cons_eq htail
    exact hdot (by simp)

theorem toList_payloadFilename (mime : String) (originalFilename : Option String) :
    (payloadFilenameWithFallback mime originalFilename).toList =
      payloadBasename.toList ++ '.' :: (payloadExt mime originalFilename).toList := by
  rw [payloadFilenameWithFallback, String.toList_append]
  rfl

theorem head_toString_append (n : Nat) {rest : String}
    (h : rest.toList.head? ≠ some 'p') : (toString n ++ rest).toList.head? ≠ some 'p' := by
  rw [String.toList_append]
  cases hdigits : (toString n).toList with
  | nil =>
      exact h
  | cons d ds =>
      have hd : d ∈ (toString n).toList := by
        rw [hdigits]
        exact List.mem_cons_self
      rw [Nat.toString_eq_ofList_toDigits, String.toList_ofList] at hd
      have hdigit := Nat.isDigit_of_mem_toDigits (by decide) (by decide) hd
      intro hp
      obtain rfl : d = 'p' := by simpa using hp
      exact absurd hdigit (by decide)

/-- No file of the session is called `payload.{ext}`. -/
theorem InternalFile.stem_ne {name : String} (h : InternalFile name) :
    stemOf name ≠ payloadBasename := by
  cases h with
  | thumb => exact stemOf_ne_of_head (by decide)
  | thumbPng => exact stemOf_ne_of_head (by decide)
  | thumbScratch => exact stemOf_ne_of_head (by decide)
  | thumbPart ext => exact stemOf_ne_of_head (by simp)
  | legacyThumb messageId ext =>
      exact stemOf_ne_of_head (head_toString_append messageId (by simp))
  | legacyThumbVersion messageId version ext =>
      exact stemOf_ne_of_head (head_toString_append messageId (by simp))
  | metaJson => exact stemOf_ne_of_head (by decide)
  | sealedBody companion => exact stemOf_ne_of_head (by simp)
  | sealedThumb companion => exact stemOf_ne_of_head (by simp)
  | uploadSession safe => exact stemOf_ne_of_head (by simp)
  | uploadSessionTmp pid nanos => exact stemOf_ne_of_head (by simp)
  | part mime originalFilename =>
      refine stemOf_ne_of_dots (payloadExt mime originalFilename).toList "part".toList ?_
      rw [String.toList_append, toList_payloadFilename, List.append_assoc]
      rfl
  | decryptedPart => exact stemOf_ne_of_dots "decrypted".toList "part".toList rfl
  | sealedSidecar mime originalFilename companion =>
      refine stemOf_ne_of_dots (payloadExt mime originalFilename).toList
        ("sealed".toList ++ companion.toList) ?_
      rw [String.toList_append, String.toList_append, toList_payloadFilename,
        List.append_assoc]
      rfl

end Internal

section Found

/-- The extension of a payload has no dot in it. -/
theorem extFromMime_dot (mime : String) : '.' ∉ (extFromMime mime).toList := by
  unfold extFromMime
  split <;> decide

theorem extFromMime_ne_json (mime : String) : extFromMime mime ≠ "json" := by
  unfold extFromMime
  split <;> decide

theorem eq_dot_of_toLower {c : Char} (h : c.toLower = '.') : c = '.' := by
  unfold Char.toLower at h
  split at h
  · rename_i hupper
    have hval := congrArg UInt32.toNat (congrArg Char.val h)
    simp [UInt32.toNat_add] at hval
    simp [UInt32.le_iff_toNat_le] at hupper
    omega
  · exact h

theorem payloadExt_dot (mime : String) (originalFilename : Option String) :
    '.' ∉ (payloadExt mime originalFilename).toList := by
  unfold payloadExt
  split
  · exact extFromMime_dot mime
  · cases hext : originalFilename.bind extFromOriginalFilename with
    | none =>
        decide
    | some ext =>
        obtain ⟨filename, -, hname⟩ := Option.bind_eq_some_iff.mp hext
        have halnum : ∀ c ∈ ext.toList, c.isAlphanum = true := by
          unfold extFromOriginalFilename at hname
          dsimp only at hname
          split at hname
          · cases hname
          · split at hname
            · rename_i hall
              cases hname
              exact List.all_eq_true.mp hall
            · cases hname
        intro hdot
        dsimp only at hdot
        have hlowered : ext.toLower = ext.map Char.toLower := rfl
        rw [hlowered, String.toList_map] at hdot
        obtain ⟨c, hc, hlower⟩ := List.mem_map.mp hdot
        obtain rfl := eq_dot_of_toLower hlower
        exact absurd (halnum _ hc) (by decide)

/-- A payload is called `.json` after the user's file, where the type is unknown. -/
theorem payloadExt_eq_json_iff (mime : String) (originalFilename : Option String) :
    payloadExt mime originalFilename = "json" ↔
      extFromMime mime = "bin" ∧
        ∃ ext, originalFilename.bind extFromOriginalFilename = some ext ∧
          ext.toLower = "json" := by
  unfold payloadExt
  by_cases hbin : extFromMime mime = "bin"
  · cases originalFilename.bind extFromOriginalFilename <;> simp [hbin]
  · simp [hbin, extFromMime_ne_json]

variable {mime : String} {originalFilename : Option String}

theorem stemOf_payload :
    stemOf (payloadFilenameWithFallback mime originalFilename) = payloadBasename := by
  unfold stemOf
  rw [toList_payloadFilename, rsplitDot_append (payloadExt_dot mime originalFilename)]
  rfl

theorem extensionOf_payload :
    extensionOf (payloadFilenameWithFallback mime originalFilename) =
      some (payloadExt mime originalFilename) := by
  unfold extensionOf
  rw [toList_payloadFilename, rsplitDot_append (payloadExt_dot mime originalFilename)]
  dsimp only
  rw [if_neg (by decide), String.ofList_toList]

/-- A file with the name of a payload may be the attachment, if it is no `.json`. -/
theorem candidate_payload {e : DirEntry}
    (hname : e.name = payloadFilenameWithFallback mime originalFilename)
    (hfile : e.isFile = true) :
    e.candidate = !(payloadExt mime originalFilename == "json") := by
  have hmeta : (payloadFilenameWithFallback mime originalFilename == metaFilename) = false :=
    beq_eq_false_iff_ne.mpr (payloadFilename_ne_meta mime originalFilename)
  have hbody (name : String) (hhead : name.toList.head? ≠ some 'p') :
      (payloadFilenameWithFallback mime originalFilename == name) = false := by
    refine beq_eq_false_iff_ne.mpr (fun heq => hhead ?_)
    rw [← heq, toList_payloadFilename]
    rfl
  unfold DirEntry.candidate
  rw [hname, stemOf_payload, extensionOf_payload, hfile, hmeta,
    hbody "body.sealed" (by decide), hbody "body.sealed.tmp" (by decide)]
  have hdots : payloadBasename.toList.contains '.' = false := by decide
  have hthumb : (payloadBasename == "thumb" ||
      "_thumb".toList.isSuffixOf payloadBasename.toList) = false := by decide
  have hversion : afterLast "_thumb_v".toList payloadBasename.toList = none := by decide
  dsimp only
  rw [hdots, hthumb, hversion, Option.some_beq_some]
  cases payloadExt mime originalFilename == "json" <;> simp

/-- An attachment directory: the payload, and files of the session beside it. -/
structure AttachmentDir (payload : String) where
  entries : List DirEntry
  distinct : entries.Pairwise (fun a b => a.name ≠ b.name)
  stored : ∃ e ∈ entries, e.name = payload ∧ e.isFile = true
  beside : ∀ e ∈ entries, e.name = payload ∨ InternalFile e.name

/-- Beside files of the session only the payload has the stem of one. -/
theorem AttachmentDir.filter_stem
    (l : AttachmentDir (payloadFilenameWithFallback mime originalFilename)) {e : DirEntry}
    (he : e ∈ l.entries) (hname : e.name = payloadFilenameWithFallback mime originalFilename) :
    l.entries.filter (fun e => stemOf e.name == payloadBasename) = [e] := by
  obtain ⟨pre, post, hsplit⟩ := List.append_of_mem he
  have hbeside := l.beside
  have hdistinct := l.distinct
  rw [hsplit] at hbeside hdistinct ⊢
  obtain ⟨-, hpost, hcross⟩ := List.pairwise_append.mp hdistinct
  have hother {x : DirEntry} (hx : x ∈ pre ++ e :: post) (hne : x.name ≠ e.name) :
      ¬ (stemOf x.name == payloadBasename) = true := by
    intro hstem
    rcases hbeside x hx with hpayload | hinternal
    · exact hne (hpayload.trans hname.symm)
    · exact hinternal.stem_ne (eq_of_beq hstem)
  have hpre : pre.filter (fun e => stemOf e.name == payloadBasename) = [] :=
    List.filter_eq_nil_iff.mpr (fun x hx =>
      hother (List.mem_append_left _ hx) (hcross x hx e List.mem_cons_self))
  have hrest : post.filter (fun e => stemOf e.name == payloadBasename) = [] :=
    List.filter_eq_nil_iff.mpr (fun x hx =>
      hother (List.mem_append_right _ (List.mem_cons_of_mem _ hx))
        (Ne.symm ((List.pairwise_cons.mp hpost).1 x hx)))
  rw [List.filter_append, hpre, List.nil_append, List.filter_cons, hrest, hname,
    stemOf_payload, if_pos (beq_self_eq_true _)]

theorem pickLargest_mem {entries : List DirEntry} {e : DirEntry}
    (h : pickLargest entries = some e) : e ∈ entries := by
  unfold pickLargest at h
  split at h
  · cases h
  · cases h
    exact List.mem_cons_self
  · exact (List.perm_insertionSort _ _).mem_iff.mp (List.mem_of_getLast? h)

/-- The file `notes.json` that a user sent, with its sealed copy. -/
def jsonDir :
    AttachmentDir (payloadFilenameWithFallback "application/json" (some "notes.json")) where
  entries := [⟨"payload.json", true, some 512⟩, ⟨"body.sealed", true, some 540⟩]
  distinct := by decide
  stored := ⟨_, List.mem_cons_self, by decide +kernel, rfl⟩
  beside := by
    intro e he
    rcases List.mem_cons.mp he with rfl | hrest
    · exact Or.inl (by decide +kernel)
    · rw [List.mem_singleton.mp hrest]
      exact Or.inr (InternalFile.sealedBody "")

/-- The attachment of `jsonDir` is not found. -/
theorem jsonDir_not_found :
    findPrimaryFile ["files", "202607", "5"] (some jsonDir.entries) ≠
      some (["files", "202607", "5"] ++
        [payloadFilenameWithFallback "application/json" (some "notes.json")]) := by
  decide +kernel

/--
Beside any files of the session, of any size, the payload is found exactly if it is
no `.json`.
-/
theorem findPrimaryFile_payload_iff (mime : String) (originalFilename : Option String)
    (l : AttachmentDir (payloadFilenameWithFallback mime originalFilename)) (dir : Path) :
    findPrimaryFile dir (some l.entries) =
        some (dir ++ [payloadFilenameWithFallback mime originalFilename]) ↔
      payloadExt mime originalFilename ≠ "json" := by
  obtain ⟨e, he, hname, hfile⟩ := l.stored
  have hcandidate := candidate_payload hname hfile
  constructor
  · intro hfound hjson
    unfold findPrimaryFile at hfound
    dsimp only at hfound
    obtain ⟨x, hx, hpath⟩ := Option.map_eq_some_iff.mp hfound
    have hxname : x.name = e.name := by
      rw [hname]
      simpa using hpath
    have hmem : x ∈ l.entries.filter DirEntry.candidate := by
      have hpicked := pickLargest_mem hx
      split at hpicked
      · exact hpicked
      · exact List.mem_of_mem_filter hpicked
    have hxcandidate := (List.mem_filter.mp hmem).2
    cases hxfile : x.isFile with
    | false =>
        simp [DirEntry.candidate, hxfile] at hxcandidate
    | true =>
        rw [candidate_payload (hxname.trans hname) hxfile, hjson] at hxcandidate
        cases hxcandidate
  · intro hjson
    have hcanonical : (l.entries.filter DirEntry.candidate).filter
        (fun e => stemOf e.name == payloadBasename) = [e] := by
      rw [List.filter_comm, l.filter_stem he hname, List.filter_cons, List.filter_nil,
        hcandidate, beq_eq_false_iff_ne.mpr hjson]
      rfl
    unfold findPrimaryFile
    dsimp only
    rw [hcanonical]
    simp [pickLargest, hname]

end Found

end PrivchatSdk
