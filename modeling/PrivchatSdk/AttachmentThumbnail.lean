import PrivchatSdk.AttachmentFrame

/-!
# The thumbnail through one send attempt

A decodable thumbnail of the message, its own or the one beside its source, is
safe in an attempt that writes nothing over it but its own bytes
(`ThumbnailSafe`).  The preparation then keeps it and finds it
(`prepare_ensures`), and a preparation that would come to its end without
failing steps (`Preparable`) still would after it.
-/

namespace PrivchatSdk

open StatementExec RelTable

section Thumbnails

variable (h : MediaHost) (a : Attachment)

/-- The bytes decode as the thumbnail. -/
def MediaHost.DecodesThumb (t : Bytes) : Prop :=
  (h.decodeImage thumbFilename t).isSome = true

namespace Attachment

/-- A decodable thumbnail of the message: its own, or the one beside its source. -/
def IsThumbnail (files : Files) (t : Bytes) : Prop :=
  h.DecodesThumb t ∧
    (files (a.canonicalThumb h) = some t ∨
      ∃ p, a.sourceThumb h = some p ∧ files p = some t)

/-- Every decodable thumbnail keeps its bytes. -/
def ThumbsKept (files files' : Files) : Prop :=
  ∀ p, p = a.canonicalThumb h ∨ a.sourceThumb h = some p →
    ∀ t, h.DecodesThumb t → files p = some t → files' p = some t

/--
Nothing is written over a decodable thumbnail but its own bytes: an image takes
over its own thumbnail; a thumbnail of another directory has these bytes and its
copy works; and an image that is not managed generates them again.
-/
def ThumbnailSafe (env : SendEnv) (files : Files) (body : Bytes) : Prop :=
  ∀ t, a.IsThumbnail h files t →
    match a.managedThumb h files with
    | some p =>
        (a.fileType = .image ∧ p = a.canonicalThumb h) ∨
          (p ≠ a.canonicalThumb h ∧ files p = some t ∧
            env.ioFault .copyThumb = none)
    | none =>
        a.fileType = .image →
          h.thumbnailOf a.filename body = some t ∧
            env.ioFault .generateThumb = none

/-- The video as the upload has it. -/
def compressed (hook : MediaProcessOp → Bytes → HookRun) (body : Bytes) : Bytes :=
  match hook .compress body with
  | .produced output => output
  | _ => body

/-- The canonical thumbnail is there and not empty. -/
def HasThumb (files : Files) : Prop :=
  0 < ((files (a.canonicalThumb h)).getD []).length

/-- Without failing steps the preparation comes to its end. -/
def Preparable (files : Files) (body : Bytes) : Prop :=
  match a.fileType with
  | .image =>
      (h.decodeImage a.filename body).isSome = true ∨
        ∃ p t, a.managedThumb h files = some p ∧ files p = some t ∧
          h.DecodesThumb t
  | .video =>
      a.isManaged h = true ∨
        ∀ hook, h.hook = some hook →
          hook .compress body ≠ .failed ∧
            (a.HasThumb h files ∨
              hook .thumbnail (compressed hook body) ≠ .failed)
  | _ => True

/-- The files agree on the thumbnails. -/
def ThumbsSame (files files' : Files) : Prop :=
  files' (a.canonicalThumb h) = files (a.canonicalThumb h) ∧
    ∀ p, a.sourceThumb h = some p → files' p = files p

variable {h a} {files files' : Files}

theorem managedThumb_eq_some {p : Path} :
    a.managedThumb h files = some p ↔
      a.sourceThumb h = some p ∧ (files p).isSome = true := by
  simp [managedThumb, Option.filter_eq_some_iff]

theorem ThumbsSame.managedThumb (hsame : a.ThumbsSame h files files') :
    a.managedThumb h files' = a.managedThumb h files := by
  ext p
  rw [managedThumb_eq_some, managedThumb_eq_some]
  constructor
  · rintro ⟨hp, hsome⟩
    rw [hsame.2 p hp] at hsome
    exact ⟨hp, hsome⟩
  · rintro ⟨hp, hsome⟩
    rw [← hsame.2 p hp] at hsome
    exact ⟨hp, hsome⟩

theorem ThumbsSame.isThumbnail
    (hsame : a.ThumbsSame h files files') {t : Bytes} :
    a.IsThumbnail h files' t ↔ a.IsThumbnail h files t := by
  unfold IsThumbnail
  rw [hsame.1]
  refine and_congr_right (fun _ => or_congr_right ?_)
  refine exists_congr (fun p => and_congr_right (fun hp => ?_))
  rw [hsame.2 p hp]

theorem ThumbsSame.thumbsKept (hsame : a.ThumbsSame h files files') :
    a.ThumbsKept h files files' := by
  rintro p (rfl | hp) t - hfile
  · exact hsame.1.trans hfile
  · exact (hsame.2 p hp).trans hfile

theorem ThumbsSame.hasThumb (hsame : a.ThumbsSame h files files') :
    a.HasThumb h files' ↔ a.HasThumb h files := by
  unfold HasThumb
  rw [hsame.1]

theorem ThumbsSame.preparable
    (hsame : a.ThumbsSame h files files') {body : Bytes} :
    a.Preparable h files' body ↔ a.Preparable h files body := by
  unfold Preparable
  rw [hsame.managedThumb, hsame.hasThumb]
  cases hkind : a.fileType with
  | image =>
      refine or_congr_right (exists_congr (fun p => exists_congr (fun t => ?_)))
      refine and_congr_right (fun hp => ?_)
      rw [hsame.2 p (managedThumb_eq_some.mp hp).1]
  | video => rfl
  | voice => rfl
  | file => rfl

theorem ThumbsSame.thumbnailSafe
    (hsame : a.ThumbsSame h files files') {env : SendEnv} {body : Bytes}
    (hsafe : a.ThumbnailSafe h env files body) :
    a.ThumbnailSafe h env files' body := by
  intro t ht
  have hwas := hsafe t (hsame.isThumbnail.mp ht)
  rw [hsame.managedThumb]
  cases hm : a.managedThumb h files with
  | none =>
      rw [hm] at hwas
      exact hwas
  | some p =>
      rw [hm] at hwas
      dsimp only at hwas ⊢
      rw [hsame.2 p (managedThumb_eq_some.mp hm).1]
      exact hwas

/-- A write elsewhere in the directory of the message leaves the thumbnails. -/
theorem thumbsSame_update
    {path : Path} (bytes : Bytes)
    (hpath : path = a.bodyPath h ∨ path = a.metaPath h) :
    a.ThumbsSame h files (Function.update files path (some bytes)) := by
  have hcanonical : a.canonicalThumb h ≠ path := by
    rcases hpath with rfl | rfl
    · exact (a.bodyPath_ne_canonicalThumb h).symm
    · exact (a.metaPath_ne_canonicalThumb h).symm
  refine ⟨Function.update_of_ne hcanonical _ _, fun p hp => ?_⟩
  have hsource : p ≠ path := by
    rcases hpath with rfl | rfl
    · exact (a.bodyPath_ne_sourceThumb h hp).symm
    · exact (a.metaPath_ne_sourceThumb h hp).symm
  exact Function.update_of_ne hsource _ _

/-- An empty file does not decode. -/
theorem ne_nil_of_decodesThumb {t : Bytes} (ht : h.DecodesThumb t) : t ≠ [] := by
  rintro rfl
  unfold MediaHost.DecodesThumb at ht
  rw [h.decode_empty] at ht
  cases ht

theorem usableThumb_eq_none {t : Bytes} :
    usableThumb h (some t) = none ↔ ¬ h.DecodesThumb t := by
  unfold usableThumb MediaHost.DecodesThumb
  cases t with
  | nil => simp [h.decode_empty]
  | cons b t => simp

theorem thumbsKept_of_none
    (hnone : ∀ t, ¬ a.IsThumbnail h files t) : a.ThumbsKept h files files' := by
  intro p hp t hdecodes hfile
  refine absurd ⟨hdecodes, ?_⟩ (hnone t)
  rcases hp with rfl | hp
  · exact .inl hfile
  · exact .inr ⟨p, hp, hfile⟩

/-- The thumbnails keep their bytes when they are all that is written. -/
theorem thumbsKept_update_canonical
    {bytes : Bytes} (hsame : ∀ t, a.IsThumbnail h files t → t = bytes) :
    a.ThumbsKept h files
      (Function.update files (a.canonicalThumb h) (some bytes)) := by
  intro p hp t hdecodes hfile
  by_cases hcanonical : p = a.canonicalThumb h
  · have ht : t = bytes := hsame t ⟨hdecodes, .inl (hcanonical ▸ hfile)⟩
    rw [hcanonical, Function.update_self, ht]
  · rw [Function.update_of_ne hcanonical]
    exact hfile

end Attachment

end Thumbnails

section Excuses

/--
No step of the attempt fails in a way that is not retryable.  An image may go
without the copy of a thumbnail, and a video without a new one.
-/
structure SendEnv.Mild (env : SendEnv) (a : Attachment) : Prop where
  io : ∀ step, env.ioFault step ≠ none →
    (a.fileType = .image ∧ step = .copyThumb) ∨
      (a.fileType = .video ∧ step = .generateThumb)
  thumb : ∀ e, env.uploadThumb = .error e → e.isRetryable = true
  thumbId : ∀ info, env.uploadThumb = .ok info → (parseU64 info.fileId).isSome = true
  thumbCallback : ∀ e, env.thumbCallback = .error e → e.isRetryable = true
  body : ∀ e, env.uploadBody = .error e → e.isRetryable = true
  bodyId : ∀ info, env.uploadBody = .ok info → (parseU64 info.fileId).isSome = true
  bodyCallback : ∀ e, env.bodyCallback = .error e → e.isRetryable = true
  encodes : env.pass.encodes a.messageId = true
  send : ∀ e, env.send = .lost e ∨ env.send = .refused e → e.isRetryable = true

/-- All steps of the attempt work: the files, the database and the network. -/
structure SendEnv.Works (env : SendEnv) (m : Nat) : Prop where
  database : ∃ now, env.pass.commandEnv m = .calm now
  io : ∀ step, env.ioFault step = none
  crash : env.crash = none
  thumb : ∃ info, env.uploadThumb = .ok info ∧ (parseU64 info.fileId).isSome = true
  thumbCallback : env.thumbCallback = .ok .unit
  body : ∃ info, env.uploadBody = .ok info ∧ (parseU64 info.fileId).isSome = true
  bodyCallback : env.bodyCallback = .ok .unit
  encodes : env.pass.encodes m = true
  send : ∃ response, env.send = .accepted response

/--
An attempt that was ready to send ends early only for a failing step, and with
an error that is not retryable only for a failure that is not.
-/
def Halt.Excused (env : SendEnv) (a : Attachment) (ready : Prop) : Halt → Prop
  | .crash => env.crash ≠ none
  | .stop e =>
      ready → ¬ env.Works a.messageId ∧ (env.Mild a → e.isRetryable = true)
  | .store _ => False

variable {env : SendEnv} {a : Attachment}

theorem Halt.Excused.mono
    {ready ready' : Prop} {halt : Halt} (he : halt.Excused env a ready)
    (hready : ready' → ready) : halt.Excused env a ready' := by
  cases halt with
  | crash => exact he
  | stop e => exact fun hr => he (hready hr)
  | store e => exact he

theorem excused_crash
    {step : Step} {ready : Prop} (hcrash : env.crash = some step) :
    Halt.crash.Excused env a ready := by
  simp [Halt.Excused, hcrash]

theorem excused_io
    {step : Step} {e : SendError} {ready : Prop}
    (hfault : env.ioFault step ≠ none)
    (hhard : ¬ ((a.fileType = .image ∧ step = .copyThumb) ∨
      (a.fileType = .video ∧ step = .generateThumb))) :
    (Halt.stop e).Excused env a ready :=
  fun _ => ⟨fun hworks => hfault (hworks.io step),
    fun hmild => absurd (hmild.io step hfault) hhard⟩

theorem excused_of_not_ready
    {e : SendError} {ready : Prop} (hnot : ¬ ready) :
    (Halt.stop e).Excused env a ready :=
  fun hready => absurd hready hnot

end Excuses

section Image

variable {h : MediaHost} {a : Attachment} {env : SendEnv} {d : Device}

/-- A new thumbnail: done, not decodable, cut off by a fault, or the process died. -/
theorem ensures_generateImageThumbnail
    {name : String} {source : Bytes}
    {Q : Nat × Nat × Nat → Device → Prop} {E : Halt → Device → Prop}
    (hnone : h.thumbnailOf name source = none →
      E (.stop (.storage "decode image failed")) d)
    (hdone : ∀ thumb size, h.thumbnailOf name source = some thumb →
      env.ioFault .generateThumb = none →
      Q size { d with
        files := Function.update d.files (a.canonicalThumb h) (some thumb) })
    (hfault : ∀ thumb files, h.thumbnailOf name source = some thumb →
      env.ioFault .generateThumb ≠ none →
      (files = d.files ∨ ∃ bytes,
        files = Function.update d.files (a.canonicalThumb h) (some bytes)) →
      E (.stop (.storage "create thumb failed")) { d with files := files })
    (hcrash : ∀ thumb, h.thumbnailOf name source = some thumb →
      env.ioFault .generateThumb = none → env.crash = some .generateThumb →
      E .crash { d with
        files := Function.update d.files (a.canonicalThumb h) (some thumb) }) :
    (generateImageThumbnail h name (some source) (a.canonicalThumb h)).Ensures
      env d Q E := by
  unfold generateImageThumbnail
  unfold MediaHost.thumbnailOf at hnone hdone hfault hcrash
  cases hdecode : h.decodeImage name source with
  | none =>
      rw [hdecode] at hnone
      simpa [hdecode] using hnone rfl
  | some size =>
      rw [hdecode] at hdone hfault hcrash
      simp only [Option.bind_some, hdecode, Option.map_some, Exec.ensures_bind]
      refine ensures_writeFile (fun hio => ?_) (fun hio => ?_) (fun written hio => ?_)
      · rw [ensures_crashPoint]
        split
        · rename_i hc
          exact hcrash _ rfl hio hc
        · exact hdone _ _ rfl hio
      · exact hfault _ _ rfl hio (.inl rfl)
      · exact hfault _ _ rfl (by simp [hio]) (.inr ⟨_, rfl⟩)

/-- The thumbnail beside an image: none, the own one, or one that is copied. -/
theorem ensures_reuseThumb
    {Q : Option (Nat × Nat × Nat) → Device → Prop} {E : Halt → Device → Prop}
    (hnone : a.managedThumb h d.files = none → Q none d)
    (hown : a.managedThumb h d.files = some (a.canonicalThumb h) →
      Q (usableThumb h (d.files (a.canonicalThumb h))) d)
    (hcopied : ∀ p bytes, a.managedThumb h d.files = some p →
      p ≠ a.canonicalThumb h → d.files p = some bytes →
      env.ioFault .copyThumb = none →
      Q (usableThumb h (some bytes)) { d with
        files := Function.update d.files (a.canonicalThumb h) (some bytes) })
    (hfailed : ∀ p files, a.managedThumb h d.files = some p →
      p ≠ a.canonicalThumb h → env.ioFault .copyThumb ≠ none →
      (files = d.files ∨ ∃ bytes,
        files = Function.update d.files (a.canonicalThumb h) (some bytes)) →
      Q none { d with files := files })
    (hcrash : ∀ p files, a.managedThumb h d.files = some p →
      p ≠ a.canonicalThumb h → env.crash = some .copyThumb →
      ((∃ bytes, d.files p = some bytes ∧ env.ioFault .copyThumb = none ∧
          files = Function.update d.files (a.canonicalThumb h) (some bytes)) ∨
        (env.ioFault .copyThumb ≠ none ∧
          (files = d.files ∨ ∃ bytes, files =
            Function.update d.files (a.canonicalThumb h) (some bytes)))) →
      E .crash { d with files := files }) :
    (reuseThumb h a).Ensures env d Q E := by
  unfold reuseThumb
  rw [Exec.ensures_bind, ensures_peekFiles]
  cases hm : a.managedThumb h d.files with
  | none =>
      exact hnone hm
  | some p =>
      dsimp only
      by_cases hp : p = a.canonicalThumb h
      · rw [if_pos hp, Exec.ensures_pure]
        exact hown (hp ▸ hm)
      · have hsome := (Attachment.managedThumb_eq_some.mp hm).2
        obtain ⟨bytes, hbytes⟩ := Option.isSome_iff_exists.mp hsome
        rw [if_neg hp, Exec.ensures_bind, Exec.ensures_attempt]
        unfold copyFile
        rw [Exec.ensures_bind, ensures_peekFiles, hbytes]
        dsimp only
        rw [if_neg hp]
        refine ensures_writeFile (fun hio => ?_) (fun hio => ?_)
          (fun written hio => ?_)
        · rw [Exec.ensures_bind, ensures_crashPoint]
          split
          · rename_i hc
            exact hcrash p _ hm hp hc (.inl ⟨bytes, hbytes, hio, rfl⟩)
          · have hdone := hcopied p bytes hm hp hbytes hio
            simpa using hdone
        · rw [Exec.ensures_bind, ensures_crashPoint]
          split
          · rename_i hc
            exact hcrash p _ hm hp hc (.inr ⟨hio, .inl rfl⟩)
          · exact hfailed p _ hm hp hio (.inl rfl)
        · have hio' : env.ioFault .copyThumb ≠ none := by simp [hio]
          rw [Exec.ensures_bind, ensures_crashPoint]
          split
          · rename_i hc
            exact hcrash p _ hm hp hc (.inr ⟨hio', .inr ⟨_, rfl⟩⟩)
          · exact hfailed p _ hm hp hio' (.inr ⟨_, rfl⟩)

/-- A thumbnail of another directory that decodes is the only thumbnail. -/
theorem Attachment.ThumbnailSafe.copied
    {files : Files} {body : Bytes} {p : Path}
    (hsafe : a.ThumbnailSafe h env files body)
    (hm : a.managedThumb h files = some p) (hp : p ≠ a.canonicalThumb h)
    {t : Bytes} (ht : a.IsThumbnail h files t) :
    files p = some t ∧ env.ioFault .copyThumb = none := by
  have hwas := hsafe t ht
  rw [hm] at hwas
  rcases hwas with ⟨-, heq⟩ | ⟨-, hcopy⟩
  · exact absurd heq hp
  · exact hcopy

/-- The image's own thumbnail is used, or no thumbnail is there to lose. -/
theorem Attachment.isThumbnail_own
    {files : Files} {t : Bytes}
    (hm : a.managedThumb h files = some (a.canonicalThumb h))
    (ht : a.IsThumbnail h files t) :
    files (a.canonicalThumb h) = some t := by
  obtain ⟨-, hown | ⟨p, hp, hfile⟩⟩ := ht
  · exact hown
  · have hsource := (Attachment.managedThumb_eq_some.mp hm).1
    rw [hsource] at hp
    cases hp
    exact hfile

/-- Where the thumbnail may be written: nothing is lost, and nothing to reuse. -/
structure Attachment.MayGenerate
    (h : MediaHost) (a : Attachment) (env : SendEnv) (files : Files)
    (body : Bytes) : Prop where
  again : ∀ t, a.IsThumbnail h files t →
    h.thumbnailOf a.filename body = some t ∧ env.ioFault .generateThumb = none
  nothing : ∀ p t, a.managedThumb h files = some p → files p = some t →
    ¬ h.DecodesThumb t

theorem Attachment.mayGenerate_of_unusable
    {files : Files} {body : Bytes} {p : Path} {bytes : Bytes}
    (hm : a.managedThumb h files = some p) (hbytes : files p = some bytes)
    (hnot : ¬ h.DecodesThumb bytes)
    (honly : ∀ t, a.IsThumbnail h files t → files p = some t) :
    a.MayGenerate h env files body where
  again t ht := by
    have heq := honly t ht
    rw [hbytes] at heq
    cases heq
    exact absurd ht.1 hnot
  nothing p' t hp' hfile := by
    rw [hm] at hp'
    cases hp'
    rw [hbytes] at hfile
    cases hfile
    exact hnot

/-- Only the canonical thumbnail was written. -/
def Attachment.OnlyThumb (h : MediaHost) (a : Attachment) (files files' : Files) :
    Prop :=
  ∀ q, q ≠ a.canonicalThumb h → files' q = files q

theorem Attachment.OnlyThumb.update
    {files files' : Files} (honly : a.OnlyThumb h files files') (bytes : Bytes) :
    a.OnlyThumb h files
      (Function.update files' (a.canonicalThumb h) (some bytes)) := by
  intro q hq
  rw [Function.update_of_ne hq]
  exact honly q hq

/-- A write to the thumbnail forgets what was written to it before. -/
theorem Attachment.OnlyThumb.update_eq
    {files files' : Files} (honly : a.OnlyThumb h files files') (bytes : Bytes) :
    Function.update files' (a.canonicalThumb h) (some bytes) =
      Function.update files (a.canonicalThumb h) (some bytes) := by
  funext q
  by_cases hq : q = a.canonicalThumb h
  · rw [hq, Function.update_self, Function.update_self]
  · rw [Function.update_of_ne hq, Function.update_of_ne hq]
    exact honly q hq

/-- The search for a thumbnail writes no other file, and loses no thumbnail. -/
structure Attachment.ThumbSought
    (h : MediaHost) (a : Attachment) (files files' : Files) : Prop where
  only : a.OnlyThumb h files files'
  kept : a.ThumbsKept h files files'
  video : a.fileType = .video → a.isManaged h = false →
    a.HasThumb h files → a.HasThumb h files'

/-- What the thumbnail comes to; one that was there is the one found. -/
structure Attachment.ThumbMade
    (h : MediaHost) (a : Attachment) (body : Bytes) (files : Files)
    (thumb : Option Path) (files' : Files) : Prop where
  sought : a.ThumbSought h files files'
  ready : a.Preparable h files body
  found : ∀ path, thumb = some path →
    path = a.canonicalThumb h ∧ (files' path).isSome = true
  same : ∀ t, a.IsThumbnail h files t →
    thumb = some (a.canonicalThumb h) ∧ files' (a.canonicalThumb h) = some t

/-- What it comes to when the attempt ends there. -/
structure Attachment.ThumbHalted
    (h : MediaHost) (a : Attachment) (env : SendEnv) (body : Bytes)
    (files : Files) (halt : Halt) (files' : Files) : Prop where
  sought : a.ThumbSought h files files'
  excused : halt.Excused env a (a.Preparable h files body)

theorem Attachment.thumbSought_image
    {files files' : Files} (hkind : a.fileType = .image)
    (honly : a.OnlyThumb h files files') (hkept : a.ThumbsKept h files files') :
    a.ThumbSought h files files' where
  only := honly
  kept := hkept
  video hvideo := by
    rw [hkind] at hvideo
    cases hvideo

/-- A generated thumbnail, where it may be generated. -/
theorem imageThumb_generated
    {body : Bytes} {files : Files} (hkind : a.fileType = .image)
    (honly : a.OnlyThumb h files d.files)
    (hkept : a.ThumbsKept h files d.files)
    (hmay : a.MayGenerate h env files body) :
    (generateImageThumbnail h a.filename (some body) (a.canonicalThumb h)).Ensures
      env d (fun _ d' => a.ThumbMade h body files (some (a.canonicalThumb h)) d'.files)
      (fun halt d' => a.ThumbHalted h env body files halt d'.files) := by
  have hready : ∀ thumb, h.thumbnailOf a.filename body = some thumb →
      a.Preparable h files body := by
    intro thumb hthumb
    obtain ⟨size, hsize, -⟩ := Option.map_eq_some_iff.mp hthumb
    simp [Attachment.Preparable, hkind, hsize]
  have hsame : ∀ thumb, h.thumbnailOf a.filename body = some thumb →
      ∀ t, a.IsThumbnail h files t → t = thumb := by
    intro thumb hthumb t ht
    have hagain := (hmay.again t ht).1
    rw [hthumb] at hagain
    exact (Option.some.inj hagain).symm
  have hnew : ∀ thumb, h.thumbnailOf a.filename body = some thumb →
      a.ThumbSought h files
        (Function.update d.files (a.canonicalThumb h) (some thumb)) := by
    intro thumb hthumb
    refine Attachment.thumbSought_image hkind (honly.update thumb) ?_
    rw [honly.update_eq]
    exact Attachment.thumbsKept_update_canonical (hsame thumb hthumb)
  refine ensures_generateImageThumbnail (fun hnone => ?_)
    (fun thumb size hthumb hio => ?_) (fun thumb files' hthumb hio hcut => ?_)
    (fun thumb hthumb hio hcrash => ?_)
  · refine ⟨Attachment.thumbSought_image hkind honly hkept, excused_of_not_ready ?_⟩
    intro hprep
    unfold Attachment.Preparable at hprep
    rw [hkind] at hprep
    rcases hprep with hdecode | ⟨p, t, hp, hfile, hdecodes⟩
    · unfold MediaHost.thumbnailOf at hnone
      rw [Option.map_eq_none_iff] at hnone
      rw [hnone] at hdecode
      cases hdecode
    · exact hmay.nothing p t hp hfile hdecodes
  · refine ⟨hnew thumb hthumb, hready thumb hthumb, by simp, ?_⟩
    intro t ht
    rw [hsame thumb hthumb t ht]
    simp
  · have hno : ∀ t, ¬ a.IsThumbnail h files t :=
      fun t ht => hio (hmay.again t ht).2
    refine ⟨Attachment.thumbSought_image hkind ?_
      (Attachment.thumbsKept_of_none hno), excused_io hio (by simp [hkind])⟩
    rcases hcut with rfl | ⟨bytes, rfl⟩
    · exact honly
    · exact honly.update bytes
  · exact ⟨hnew thumb hthumb, excused_crash hcrash⟩

theorem imageThumb_ensures
    {body : Bytes} (hkind : a.fileType = .image)
    (hbody : d.files (a.bodyPath h) = some body)
    (hsafe : a.ThumbnailSafe h env d.files body) :
    (imageThumb h a).Ensures env d
      (fun _ d' => a.ThumbMade h body d.files (some (a.canonicalThumb h)) d'.files)
      (fun halt d' => a.ThumbHalted h env body d.files halt d'.files) := by
  have hself : a.OnlyThumb h d.files d.files := fun _ _ => rfl
  -- The body is not the thumbnail, so it is still there to generate from.
  have hgenerate : ∀ files', a.OnlyThumb h d.files files' →
      a.ThumbsKept h d.files files' → a.MayGenerate h env d.files body →
      (do
        let files ← peekFiles
        generateImageThumbnail h a.filename (files (a.bodyPath h))
          (a.canonicalThumb h) : SendM (Nat × Nat × Nat)).Ensures env
        { d with files := files' }
        (fun _ d' => a.ThumbMade h body d.files (some (a.canonicalThumb h)) d'.files)
        (fun halt d' => a.ThumbHalted h env body d.files halt d'.files) := by
    intro files' honly hkept hmay
    rw [Exec.ensures_bind, ensures_peekFiles]
    dsimp only
    rw [honly _ (a.bodyPath_ne_canonicalThumb h), hbody]
    exact imageThumb_generated hkind honly hkept hmay
  have hreused : ∀ p t files', a.managedThumb h d.files = some p →
      d.files p = some t → h.DecodesThumb t →
      a.OnlyThumb h d.files files' → files' (a.canonicalThumb h) = some t →
      (∀ t', a.IsThumbnail h d.files t' → t' = t) →
      a.ThumbMade h body d.files (some (a.canonicalThumb h)) files' := by
    intro p t files' hm hfile hdecodes honly hcanonical hunique
    have hprep : a.Preparable h d.files body := by
      unfold Attachment.Preparable
      rw [hkind]
      exact .inr ⟨p, t, hm, hfile, hdecodes⟩
    refine ⟨Attachment.thumbSought_image hkind honly ?_, hprep,
      by simp [hcanonical], ?_⟩
    · intro q hq t' hdecodes' hfile'
      by_cases hqc : q = a.canonicalThumb h
      · rw [hqc, hcanonical,
          hunique t' ⟨hdecodes', .inl (hqc ▸ hfile')⟩]
      · rw [honly q hqc, hfile']
    · intro t' ht'
      exact ⟨rfl, by rw [hcanonical, hunique t' ht']⟩
  unfold imageThumb
  rw [Exec.ensures_bind]
  refine ensures_reuseThumb (fun hm => ?_) (fun hm => ?_)
    (fun p bytes hm hp hbytes hio => ?_) (fun p files' hm hp hio hcut => ?_)
    (fun p files' hm hp hcrash hcut => ?_)
  · refine hgenerate _ hself (fun _ _ _ _ hfile => hfile) ⟨fun t ht => ?_, ?_⟩
    · have hwas := hsafe t ht
      rw [hm] at hwas
      exact hwas hkind
    · intro p t hp
      rw [hm] at hp
      cases hp
  · obtain ⟨bytes, hbytes⟩ := Option.isSome_iff_exists.mp
      (Attachment.managedThumb_eq_some.mp hm).2
    have honly : ∀ t, a.IsThumbnail h d.files t →
        d.files (a.canonicalThumb h) = some t :=
      fun t ht => Attachment.isThumbnail_own hm ht
    rw [hbytes]
    cases husable : usableThumb h (some bytes) with
    | none =>
        have hnot := Attachment.usableThumb_eq_none.mp husable
        exact hgenerate _ hself (fun _ _ _ _ hfile => hfile)
          (Attachment.mayGenerate_of_unusable hm hbytes hnot honly)
    | some size =>
        have hdecodes : h.DecodesThumb bytes := by
          by_contra hnot
          rw [Attachment.usableThumb_eq_none.mpr hnot] at husable
          cases husable
        refine hreused _ bytes d.files hm hbytes hdecodes hself hbytes ?_
        intro t' ht'
        have heq := honly t' ht'
        rw [hbytes] at heq
        exact (Option.some.inj heq).symm
  · have honly : ∀ t, a.IsThumbnail h d.files t → d.files p = some t :=
      fun t ht => (hsafe.copied hm hp ht).1
    have hunique : ∀ t, a.IsThumbnail h d.files t → t = bytes := by
      intro t ht
      have heq := honly t ht
      rw [hbytes] at heq
      exact (Option.some.inj heq).symm
    cases husable : usableThumb h (some bytes) with
    | none =>
        have hnot := Attachment.usableThumb_eq_none.mp husable
        exact hgenerate _ (hself.update bytes)
          (Attachment.thumbsKept_update_canonical hunique)
          (Attachment.mayGenerate_of_unusable hm hbytes hnot honly)
    | some size =>
        have hdecodes : h.DecodesThumb bytes := by
          by_contra hnot
          rw [Attachment.usableThumb_eq_none.mpr hnot] at husable
          cases husable
        exact hreused p bytes _ hm hbytes hdecodes (hself.update bytes)
          (Function.update_self ..) hunique
  · have hno : ∀ t, ¬ a.IsThumbnail h d.files t :=
      fun t ht => hio (hsafe.copied hm hp ht).2
    refine hgenerate _ ?_ (Attachment.thumbsKept_of_none hno)
      ⟨fun t ht => absurd ht (hno t), ?_⟩
    · rcases hcut with rfl | ⟨bytes, rfl⟩
      · exact hself
      · exact hself.update bytes
    · intro p' t hp' hfile hdecodes
      refine hno t ⟨hdecodes, .inr ⟨p', ?_, hfile⟩⟩
      exact (Attachment.managedThumb_eq_some.mp hp').1
  · rcases hcut with ⟨bytes, hbytes, -, rfl⟩ | ⟨hio, hcut⟩
    · refine ⟨Attachment.thumbSought_image hkind (hself.update bytes)
        (Attachment.thumbsKept_update_canonical ?_), excused_crash hcrash⟩
      intro t ht
      have heq := (hsafe.copied hm hp ht).1
      rw [hbytes] at heq
      exact (Option.some.inj heq).symm
    · have hno : ∀ t, ¬ a.IsThumbnail h d.files t :=
        fun t ht => hio (hsafe.copied hm hp ht).2
      refine ⟨Attachment.thumbSought_image hkind ?_
        (Attachment.thumbsKept_of_none hno), excused_crash hcrash⟩
      rcases hcut with rfl | ⟨bytes, rfl⟩
      · exact hself
      · exact hself.update bytes

end Image

section Video

variable {h : MediaHost} {a : Attachment} {env : SendEnv} {d : Device}

theorem Attachment.hasThumb_of_decodes
    {files : Files} {t : Bytes} (ht : h.DecodesThumb t)
    (hfile : files (a.canonicalThumb h) = some t) : a.HasThumb h files := by
  have hne := Attachment.ne_nil_of_decodesThumb ht
  unfold Attachment.HasThumb
  rw [hfile]
  exact List.length_pos_iff.mpr hne

/-- A thumbnail beside the source needs a managed source. -/
theorem Attachment.sourceThumb_of_unmanaged
    (hm : a.isManaged h = false) : a.sourceThumb h = none := by
  unfold Attachment.isManaged at hm
  unfold Attachment.sourceThumb
  rw [Option.isSome_eq_false_iff, Option.isNone_iff_eq_none] at hm
  rw [hm]
  rfl

theorem Attachment.managedThumb_of_unmanaged
    {files : Files} (hm : a.isManaged h = false) :
    a.managedThumb h files = none := by
  unfold Attachment.managedThumb
  rw [Attachment.sourceThumb_of_unmanaged hm]
  rfl

/-- The video hook of an unmanaged video, up to the upload. -/
def Attachment.Compressed
    (h : MediaHost) (a : Attachment) (body upload : Bytes) : Prop :=
  a.isManaged h = false → ∀ hook, h.hook = some hook →
    hook .compress body ≠ .failed ∧ upload = Attachment.compressed hook body

/-- Compressing writes the body of an unmanaged video only. -/
theorem compressVideo_ensures
    {body : Bytes} (hkind : a.fileType = .video) :
    (compressVideo h a body).Ensures env d
      (fun upload d' => (a.ThumbsSame h d.files d'.files ∧
          (a.isManaged h = true → d'.files = d.files)) ∧
        a.Compressed h body upload)
      (fun halt d' => (a.ThumbsSame h d.files d'.files ∧
          (a.isManaged h = true → d'.files = d.files)) ∧
        halt.Excused env a (a.Preparable h d.files body)) := by
  have hsame : a.ThumbsSame h d.files d.files ∧
      (a.isManaged h = true → d.files = d.files) :=
    ⟨⟨rfl, fun _ _ => rfl⟩, fun _ => rfl⟩
  unfold compressVideo
  split
  · rename_i hook hmanaged hhook
    have hcompressed : hook .compress body ≠ .failed →
        a.Compressed h body (Attachment.compressed hook body) := by
      intro hne _ hook' hhook'
      rw [hhook] at hhook'
      cases hhook'
      exact ⟨hne, rfl⟩
    cases hrun : hook .compress body with
    | failed =>
        refine ⟨hsame, excused_of_not_ready ?_⟩
        intro hprep
        unfold Attachment.Preparable at hprep
        rw [hkind] at hprep
        rcases hprep with hm | hok
        · rw [hmanaged] at hm
          cases hm
        · exact (hok hook hhook).1 hrun
    | declined =>
        dsimp only
        rw [Exec.ensures_bind, ensures_crashPoint]
        split
        · rename_i hc
          exact ⟨hsame, excused_crash hc⟩
        · have hmade := hcompressed (by simp [hrun])
          simp only [Attachment.compressed, hrun] at hmade
          exact ⟨hsame, hmade⟩
    | produced output =>
        have hwritten : a.ThumbsSame h d.files
              (Function.update d.files (a.bodyPath h) (some output)) ∧
            (a.isManaged h = true →
              Function.update d.files (a.bodyPath h) (some output) = d.files) := by
          refine ⟨Attachment.thumbsSame_update _ (.inl rfl), fun hm => ?_⟩
          rw [hmanaged] at hm
          cases hm
        dsimp only
        simp only [Exec.ensures_bind, ensures_replaceFile, ensures_crashPoint,
          ensures_ioStep]
        split
        · rename_i hc
          exact ⟨hwritten, excused_crash hc⟩
        · split
          · have hmade := hcompressed (by simp [hrun])
            simp only [Attachment.compressed, hrun] at hmade
            exact ⟨hwritten, hmade⟩
          · rename_i hio
            exact ⟨hwritten, excused_io hio (by simp)⟩
  · rename_i hnot
    refine ⟨hsame, fun hm hook hhook => ?_⟩
    exact (hnot hook hm hhook).elim

/-- The copy of a thumbnail leaves an unmanaged video alone. -/
structure Attachment.VideoCopied
    (h : MediaHost) (a : Attachment) (files : Files) (found : Option Path)
    (files' : Files) : Prop where
  only : a.OnlyThumb h files files'
  kept : a.ThumbsKept h files files'
  none : found = none → files' = files ∧ a.managedThumb h files = none
  found : ∀ path, found = some path →
    path = a.canonicalThumb h ∧ (files' path).isSome = true ∧
      a.isManaged h = true ∧
      ∀ t, a.IsThumbnail h files t → files' (a.canonicalThumb h) = some t

theorem Attachment.isManaged_of_managedThumb
    {files : Files} {p : Path} (hm : a.managedThumb h files = some p) :
    a.isManaged h = true := by
  by_contra hnot
  rw [Bool.not_eq_true] at hnot
  rw [Attachment.managedThumb_of_unmanaged hnot] at hm
  cases hm

theorem Attachment.thumbSought_managed
    {files files' : Files} (hmanaged : a.isManaged h = true)
    (honly : a.OnlyThumb h files files') (hkept : a.ThumbsKept h files files') :
    a.ThumbSought h files files' where
  only := honly
  kept := hkept
  video _ hnot := by
    rw [hmanaged] at hnot
    cases hnot

theorem copyVideoThumb_ensures
    {body : Bytes} (hkind : a.fileType = .video)
    (hsafe : a.ThumbnailSafe h env d.files body) :
    (copyVideoThumb h a).Ensures env d
      (fun found d' => a.VideoCopied h d.files found d'.files)
      (fun halt d' => a.ThumbHalted h env body d.files halt d'.files) := by
  have hself : a.OnlyThumb h d.files d.files := fun _ _ => rfl
  unfold copyVideoThumb
  rw [Exec.ensures_bind, ensures_peekFiles]
  cases hm : a.managedThumb h d.files with
  | none =>
      exact ⟨hself, fun _ _ _ _ hfile => hfile, fun _ => ⟨rfl, hm⟩, by simp⟩
  | some p =>
      have hmanaged := Attachment.isManaged_of_managedThumb hm
      obtain ⟨bytes, hbytes⟩ := Option.isSome_iff_exists.mp
        (Attachment.managedThumb_eq_some.mp hm).2
      -- With a thumbnail to lose, the copy comes from elsewhere, and works.
      have hcopy : ∀ t, a.IsThumbnail h d.files t →
          p ≠ a.canonicalThumb h ∧ t = bytes ∧ env.ioFault .copyThumb = none := by
        intro t ht
        have hwas := hsafe t ht
        rw [hm] at hwas
        rcases hwas with ⟨himage, -⟩ | ⟨hp, hfile, hio⟩
        · rw [hkind] at himage
          cases himage
        · rw [hbytes] at hfile
          exact ⟨hp, (Option.some.inj hfile).symm, hio⟩
      have hnew : a.ThumbsKept h d.files
          (Function.update d.files (a.canonicalThumb h)
            (some (if p = a.canonicalThumb h then [] else bytes))) := by
        refine Attachment.thumbsKept_update_canonical (fun t ht => ?_)
        rw [if_neg (hcopy t ht).1]
        exact (hcopy t ht).2.1
      have hcut : env.ioFault .copyThumb ≠ none →
          ∀ files', a.OnlyThumb h d.files files' →
            a.ThumbHalted h env body d.files
              (.stop (.storage "copy managed video thumbnail failed")) files' := by
        intro hio files' honly
        refine ⟨Attachment.thumbSought_managed hmanaged honly
          (Attachment.thumbsKept_of_none (fun t ht => hio (hcopy t ht).2.2)), ?_⟩
        exact excused_io hio (by simp [hkind])
      dsimp only
      unfold copyFile
      rw [Exec.ensures_bind, Exec.ensures_bind, ensures_peekFiles, hbytes]
      dsimp only
      refine ensures_writeFile (fun hio => ?_) (fun hio => hcut hio _ hself)
        (fun written hio => hcut (by simp [hio]) _ (hself.update _))
      have hhalted : ∀ halt : Halt, halt.Excused env a (a.Preparable h d.files body) →
          a.ThumbHalted h env body d.files halt
            (Function.update d.files (a.canonicalThumb h)
              (some (if p = a.canonicalThumb h then [] else bytes))) :=
        fun halt he =>
          ⟨Attachment.thumbSought_managed hmanaged (hself.update _) hnew, he⟩
      rw [Exec.ensures_bind, ensures_crashPoint]
      split
      · rename_i hc
        exact hhalted _ (excused_crash hc)
      · rw [Exec.ensures_bind]
        refine ensures_noteThumbStatus (fun s => ?_) (fun hc s => hhalted _ hc)
        refine ⟨hself.update _, hnew, by simp, ?_⟩
        rintro path ⟨⟩
        refine ⟨rfl, by simp, hmanaged, fun t ht => ?_⟩
        dsimp only
        rw [Function.update_self, if_neg (hcopy t ht).1, (hcopy t ht).2.1]

/-- A frame: encoded, or no thumbnail, or the process died. -/
theorem frameThumb_ensures
    {files : Files} {frame : Bytes} (honly : a.OnlyThumb h files d.files) :
    (frameThumb h a frame).Ensures env d
      (fun made d' => a.OnlyThumb h files d'.files ∧
        ∀ path, made = some path →
          path = a.canonicalThumb h ∧ (d'.files path).isSome = true)
      (fun halt d' => a.OnlyThumb h files d'.files ∧
        halt = .crash ∧ env.crash ≠ none) := by
  unfold frameThumb
  rw [Exec.ensures_bind, Exec.ensures_attempt, Exec.ensures_bind]
  refine ensures_generateImageThumbnail (fun hnone => ?_)
    (fun thumb size hthumb hio => ?_) (fun thumb files' hthumb hio hcut => ?_)
    (fun thumb hthumb hio hcrash => ?_)
  · exact ⟨honly, by simp⟩
  · refine ensures_noteThumbStatus (fun s => ?_) (fun hc s => ?_)
    · refine ⟨honly.update thumb, ?_⟩
      rintro path ⟨⟩
      exact ⟨rfl, by simp⟩
    · exact ⟨honly.update thumb, rfl, hc⟩
  · refine ⟨?_, by simp⟩
    rcases hcut with rfl | ⟨bytes, rfl⟩
    · exact honly
    · exact honly.update bytes
  · exact ⟨honly.update thumb, rfl, by simp [hcrash]⟩

/-- An unmanaged video without a thumbnail, at the search for a new one. -/
structure Attachment.NoThumb
    (h : MediaHost) (a : Attachment) (body video : Bytes) (files : Files) :
    Prop where
  kind : a.fileType = .video
  unmanaged : a.isManaged h = false
  empty : ¬ a.HasThumb h files
  video : a.Compressed h body video

theorem Attachment.NoThumb.isThumbnail
    {body video : Bytes} {files : Files} (hno : a.NoThumb h body video files)
    (t : Bytes) : ¬ a.IsThumbnail h files t := by
  rintro ⟨hdecodes, hown | ⟨p, hp, -⟩⟩
  · exact hno.empty (Attachment.hasThumb_of_decodes hdecodes hown)
  · rw [Attachment.sourceThumb_of_unmanaged hno.unmanaged] at hp
    cases hp

theorem Attachment.NoThumb.sought
    {body video : Bytes} {files files' : Files}
    (hno : a.NoThumb h body video files) (honly : a.OnlyThumb h files files') :
    a.ThumbSought h files files' where
  only := honly
  kept := Attachment.thumbsKept_of_none hno.isThumbnail
  video _ _ hhas := absurd hhas hno.empty

/-- With a hook that makes no failure, the video is ready. -/
theorem Attachment.NoThumb.preparable_iff
    {body video : Bytes} {files : Files}
    (hno : a.NoThumb h body video files) :
    a.Preparable h files body ↔
      ∀ hook, h.hook = some hook → hook .thumbnail video ≠ .failed := by
  unfold Attachment.Preparable
  rw [hno.kind]
  simp only [hno.unmanaged, Bool.false_eq_true, hno.empty, false_or]
  constructor
  · intro hok hook hhook
    rw [(hno.video hno.unmanaged hook hhook).2]
    exact (hok hook hhook).2
  · intro hok hook hhook
    have hvideo := hno.video hno.unmanaged hook hhook
    refine ⟨hvideo.1, ?_⟩
    rw [← hvideo.2]
    exact hok hook hhook

theorem makeVideoThumb_ensures
    {body video : Bytes} (hno : a.NoThumb h body video d.files) :
    (makeVideoThumb h a video).Ensures env d
      (fun thumb d' => a.ThumbMade h body d.files thumb d'.files)
      (fun halt d' => a.ThumbHalted h env body d.files halt d'.files) := by
  have hself : a.OnlyThumb h d.files d.files := fun _ _ => rfl
  have hframe : ∀ frame, (frameThumb h a frame).Ensures env d
      (fun made d' => a.OnlyThumb h d.files d'.files ∧
        ∀ path, made = some path →
          path = a.canonicalThumb h ∧ (d'.files path).isSome = true)
      (fun halt d' => a.ThumbHalted h env body d.files halt d'.files) := by
    intro frame
    refine (frameThumb_ensures hself).mono (fun _ _ hmade => hmade) ?_
    rintro halt d' ⟨honly, rfl, hc⟩
    exact ⟨hno.sought honly, hc⟩
  have hcrashed : ∀ {step : Step} {files' : Files}, env.crash = some step →
      a.OnlyThumb h d.files files' →
      a.ThumbHalted h env body d.files .crash files' :=
    fun hc honly => ⟨hno.sought honly, excused_crash hc⟩
  have hhooked : (hookThumb h a video).Ensures env d
      (fun made d' => (a.OnlyThumb h d.files d'.files ∧
          ∀ path, made = some path →
            path = a.canonicalThumb h ∧ (d'.files path).isSome = true) ∧
        a.Preparable h d.files body)
      (fun halt d' => a.ThumbHalted h env body d.files halt d'.files) := by
    rw [hno.preparable_iff]
    unfold hookThumb
    cases hhook : h.hook with
    | none =>
        exact ⟨⟨hself, by simp⟩, by simp⟩
    | some hook =>
        dsimp only
        have hready : hook .thumbnail video ≠ .failed →
            ∀ hook', some hook = some hook' → hook' .thumbnail video ≠ .failed := by
          rintro hne hook' ⟨⟩
          exact hne
        cases hrun : hook .thumbnail video with
        | failed =>
            refine ⟨hno.sought hself, excused_of_not_ready ?_⟩
            rw [hno.preparable_iff]
            exact fun hok => hok hook hhook hrun
        | declined =>
            dsimp only
            rw [Exec.ensures_bind, ensures_crashPoint]
            split
            · rename_i hc
              exact hcrashed hc hself
            · exact ⟨⟨hself, by simp⟩, hready (by simp [hrun])⟩
        | produced frame =>
            dsimp only
            rw [Exec.ensures_bind, ensures_crashPoint]
            split
            · rename_i hc
              exact hcrashed hc hself
            · exact (hframe frame).mono
                (fun _ _ hmade => ⟨hmade, hready (by simp [hrun])⟩)
                (fun _ _ hhalt => hhalt)
  have hmade : ∀ {thumb : Option Path} {files' : Files},
      a.OnlyThumb h d.files files' →
      (∀ path, thumb = some path →
        path = a.canonicalThumb h ∧ (files' path).isSome = true) →
      a.Preparable h d.files body →
      a.ThumbMade h body d.files thumb files' :=
    fun honly hfound hready => ⟨hno.sought honly, hready, hfound,
      fun t ht => absurd ht (hno.isThumbnail t)⟩
  unfold makeVideoThumb
  rw [Exec.ensures_bind]
  refine hhooked.mono ?_ (fun _ _ hhalt => hhalt)
  rintro hooked d₁ ⟨⟨honly, hfound⟩, hready⟩
  cases hooked with
  | some path =>
      exact hmade honly hfound hready
  | none =>
      dsimp only
      unfold jobThumb
      simp only [Exec.ensures_bind, ensures_ofEnv, ensures_crashPoint]
      split
      · rename_i hc
        exact hcrashed hc honly
      · have hnoted : (do
            noteThumbStatus a.messageId 3
            pure none : SendM (Option Path)).Ensures env d₁
            (fun thumb d' => a.ThumbMade h body d.files thumb d'.files)
            (fun halt d' => a.ThumbHalted h env body d.files halt d'.files) := by
          rw [Exec.ensures_bind]
          refine ensures_noteThumbStatus (fun s => ?_) (fun hc s => ?_)
          · exact hmade honly (by simp) hready
          · exact ⟨hno.sought honly, hc⟩
        split
        · refine (frameThumb_ensures honly).mono ?_ ?_
          · rintro made d₂ ⟨honly₂, hfound₂⟩
            cases made with
            | some path =>
                exact hmade honly₂ hfound₂ hready
            | none =>
                dsimp only
                rw [Exec.ensures_bind]
                refine ensures_noteThumbStatus (fun s => ?_) (fun hc s => ?_)
                · exact hmade honly₂ (by simp) hready
                · exact ⟨hno.sought honly₂, hc⟩
          · rintro halt d₂ ⟨honly₂, rfl, hc⟩
            exact ⟨hno.sought honly₂, hc⟩
        · exact hnoted

/-- A video with a usable thumbnail, or a managed one, is ready. -/
theorem Attachment.preparable_of_hasThumb
    {body video : Bytes} {files : Files} (hkind : a.fileType = .video)
    (hvideo : a.Compressed h body video)
    (hhas : a.isManaged h = false → a.HasThumb h files) :
    a.Preparable h files body := by
  unfold Attachment.Preparable
  rw [hkind]
  cases hmanaged : a.isManaged h with
  | true =>
      exact .inl rfl
  | false =>
      exact .inr (fun hook hhook =>
        ⟨(hvideo hmanaged hook hhook).1, .inl (hhas hmanaged)⟩)

theorem videoThumb_ensures
    {body video : Bytes} (hkind : a.fileType = .video)
    (hsafe : a.ThumbnailSafe h env d.files body)
    (hvideo : a.Compressed h body video) :
    (videoThumb h a video).Ensures env d
      (fun thumb d' => a.ThumbMade h body d.files thumb d'.files)
      (fun halt d' => a.ThumbHalted h env body d.files halt d'.files) := by
  unfold videoThumb
  rw [Exec.ensures_bind]
  refine (copyVideoThumb_ensures hkind hsafe).mono ?_ (fun _ _ hhalt => hhalt)
  intro copied d₁ hcopy
  have hcopied : copied ≠ none → a.isManaged h = true := by
    intro hne
    obtain ⟨path, hpath⟩ := Option.ne_none_iff_exists'.mp hne
    exact (hcopy.found path hpath).2.2.1
  have hunmanaged : a.isManaged h = false → copied = none := by
    intro hm
    by_contra hne
    rw [hcopied hne] at hm
    cases hm
  have hfiles : a.isManaged h = false → d₁.files = d.files :=
    fun hm => (hcopy.none (hunmanaged hm)).1
  have hsought : a.ThumbSought h d.files d₁.files := by
    refine ⟨hcopy.only, hcopy.kept, fun _ hm hhas => ?_⟩
    rw [hfiles hm]
    exact hhas
  -- A thumbnail that was there stands at the canonical path by now.
  have hsame : ∀ t, a.IsThumbnail h d.files t →
      d₁.files (a.canonicalThumb h) = some t := by
    intro t ht
    cases hcopied : copied with
    | some path =>
        exact (hcopy.found path hcopied).2.2.2 t ht
    | none =>
        obtain ⟨heq, hm⟩ := hcopy.none hcopied
        rw [heq]
        obtain ⟨-, hown | ⟨p, hp, hfile⟩⟩ := ht
        · exact hown
        · have hmp : a.managedThumb h d.files = some p :=
            Attachment.managedThumb_eq_some.mpr ⟨hp, by simp [hfile]⟩
          rw [hm] at hmp
          cases hmp
  unfold presentThumb
  rw [Exec.ensures_bind, Exec.ensures_bind, ensures_peekFiles]
  by_cases hhas : a.HasThumb h d₁.files
  · have hlen : 0 < ((d₁.files (a.canonicalThumb h)).getD []).length := hhas
    rw [if_pos hlen, Exec.ensures_bind]
    refine ensures_noteThumbStatus (fun s => ?_) (fun hc s => ⟨hsought, hc⟩)
    have hready : a.Preparable h d.files body := by
      refine Attachment.preparable_of_hasThumb hkind hvideo (fun hm => ?_)
      rw [← hfiles hm]
      exact hhas
    have hfound : (d₁.files (a.canonicalThumb h)).isSome = true := by
      unfold Attachment.HasThumb at hhas
      cases hc : d₁.files (a.canonicalThumb h) with
      | none => simp [hc] at hhas
      | some bytes => rfl
    rw [Exec.ensures_pure]
    simp only [Option.isSome_some, Bool.or_true, if_true]
    refine ⟨hsought, hready, ?_, fun t ht => ⟨rfl, hsame t ht⟩⟩
    rintro path ⟨⟩
    exact ⟨rfl, hfound⟩
  · have hlen : ¬ 0 < ((d₁.files (a.canonicalThumb h)).getD []).length := hhas
    rw [if_neg hlen, Exec.ensures_pure]
    have hno : ∀ t, ¬ a.IsThumbnail h d.files t :=
      fun t ht => hhas (Attachment.hasThumb_of_decodes ht.1 (hsame t ht))
    cases hmanaged : a.isManaged h with
    | true =>
        simp only [Bool.true_or, if_true]
        refine ⟨hsought, ?_, ?_, fun t ht => absurd ht (hno t)⟩
        · refine Attachment.preparable_of_hasThumb hkind hvideo (fun hm => ?_)
          rw [hmanaged] at hm
          cases hm
        · intro path hpath
          obtain ⟨heq, hsome, -⟩ := hcopy.found path hpath
          exact ⟨heq, hsome⟩
    | false =>
        rw [hunmanaged hmanaged]
        simp only [Option.isSome_none, Bool.or_self, Bool.false_eq_true, if_false]
        have heq := hfiles hmanaged
        rw [← heq]
        exact makeVideoThumb_ensures ⟨hkind, hmanaged, hhas, hvideo⟩

end Video

section Prepare

variable {h : MediaHost} {a : Attachment} {env : SendEnv} {d : Device}

/-- What the preparation keeps for the attempts to come. -/
structure Attachment.MediaKept
    (h : MediaHost) (a : Attachment) (files files' : Files) : Prop where
  kept : a.ThumbsKept h files files'
  video : a.fileType = .video → a.isManaged h = false →
    a.HasThumb h files → a.HasThumb h files'
  body : a.isManaged h = true → files' (a.bodyPath h) = files (a.bodyPath h)

theorem Attachment.ThumbSought.mediaKept
    {files files' : Files} (hsought : a.ThumbSought h files files') :
    a.MediaKept h files files' where
  kept := hsought.kept
  video := hsought.video
  body _ := hsought.only _ (a.bodyPath_ne_canonicalThumb h)

theorem Attachment.ThumbsSame.mediaKept
    {files files' : Files} (hsame : a.ThumbsSame h files files')
    (hbody : a.isManaged h = true →
      files' (a.bodyPath h) = files (a.bodyPath h)) :
    a.MediaKept h files files' where
  kept := hsame.thumbsKept
  video _ _ hhas := hsame.hasThumb.mpr hhas
  body := hbody

theorem Attachment.MediaKept.trans
    {files₁ files₂ files₃ : Files} (h₁ : a.MediaKept h files₁ files₂)
    (h₂ : a.MediaKept h files₂ files₃) : a.MediaKept h files₁ files₃ where
  kept p hp t hdecodes hfile :=
    h₂.kept p hp t hdecodes (h₁.kept p hp t hdecodes hfile)
  video hkind hm hhas := h₂.video hkind hm (h₁.video hkind hm hhas)
  body hm := (h₂.body hm).trans (h₁.body hm)

/-- What is ready stays ready. -/
theorem Attachment.MediaKept.preparable
    {files files' : Files} {body : Bytes} (hkept : a.MediaKept h files files')
    (hready : a.Preparable h files body) : a.Preparable h files' body := by
  unfold Attachment.Preparable at hready ⊢
  cases hkind : a.fileType with
  | image =>
      rw [hkind] at hready
      rcases hready with hdecode | ⟨p, t, hp, hfile, hdecodes⟩
      · exact .inl hdecode
      · obtain ⟨hsource, -⟩ := Attachment.managedThumb_eq_some.mp hp
        have hfile' := hkept.kept p (.inr hsource) t hdecodes hfile
        exact .inr ⟨p, t, Attachment.managedThumb_eq_some.mpr
          ⟨hsource, by simp [hfile']⟩, hfile', hdecodes⟩
  | video =>
      rw [hkind] at hready
      cases hmanaged : a.isManaged h with
      | true =>
          exact .inl rfl
      | false =>
          refine .inr (fun hook hhook => ?_)
          rcases hready with hm | hok
          · rw [hmanaged] at hm
            cases hm
          · refine ⟨(hok hook hhook).1, (hok hook hhook).2.imp_left ?_⟩
            exact hkept.video hkind hmanaged
  | voice => trivial
  | file => trivial

/-- What the preparation of an image or video comes to. -/
structure Attachment.PrepareDone
    (h : MediaHost) (a : Attachment) (body : Bytes) (files : Files)
    (thumb : Option Path) (files' : Files) : Prop where
  media : a.MediaKept h files files'
  ready : a.Preparable h files body
  found : ∀ path, thumb = some path →
    path = a.canonicalThumb h ∧ (files' path).isSome = true
  same : ∀ t, a.IsThumbnail h files t →
    thumb = some (a.canonicalThumb h) ∧ files' (a.canonicalThumb h) = some t

structure Attachment.PrepareHalted
    (h : MediaHost) (a : Attachment) (env : SendEnv) (body : Bytes)
    (files : Files) (halt : Halt) (files' : Files) : Prop where
  media : a.MediaKept h files files'
  excused : halt.Excused env a (a.Preparable h files body)

theorem Attachment.mediaKept_meta (files : Files) (bytes : Bytes) :
    a.MediaKept h files
      (Function.update files (a.metaPath h) (some bytes)) :=
  (Attachment.thumbsSame_update bytes (.inr rfl)).mediaKept
    (fun _ => Function.update_of_ne (a.bodyPath_ne_metaPath h) _ _)

/-- The meta file is written beside the thumbnail. -/
theorem writeMeta_ensures
    {body : Bytes} {files : Files} {thumb : Option Path} (prepared : Prepared)
    (thumbnail : Option MediaThumbnailMeta)
    (hdone : a.PrepareDone h body files thumb d.files) :
    (writeMeta h a prepared thumbnail).Ensures env d
      (fun _ d' => a.PrepareDone h body files thumb d'.files)
      (fun halt d' => a.PrepareHalted h env body files halt d'.files) := by
  have hwritten : ∀ bytes, a.PrepareDone h body files thumb
      (Function.update d.files (a.metaPath h) (some bytes)) := by
    intro bytes
    have hne := (a.metaPath_ne_canonicalThumb h).symm
    refine ⟨hdone.media.trans (Attachment.mediaKept_meta _ _), hdone.ready, ?_, ?_⟩
    · intro path hpath
      obtain ⟨rfl, hsome⟩ := hdone.found path hpath
      rw [Function.update_of_ne hne]
      exact ⟨rfl, hsome⟩
    · intro t ht
      rw [Function.update_of_ne hne]
      exact hdone.same t ht
  have hhard : ¬ ((a.fileType = .image ∧ Step.writeMeta = .copyThumb) ∨
      (a.fileType = .video ∧ Step.writeMeta = .generateThumb)) := by
    simp
  unfold writeMeta
  rw [Exec.ensures_bind, ensures_ofEnv, Exec.ensures_bind]
  refine ensures_writeFile (fun hio => ?_)
    (fun hio => ⟨hdone.media, excused_io hio hhard⟩)
    (fun written hio => ⟨(hwritten _).media, excused_io (by simp [hio]) hhard⟩)
  rw [ensures_crashPoint]
  split
  · rename_i hc
    exact ⟨(hwritten _).media, excused_crash hc⟩
  · exact hwritten _

/-- The preparation keeps the thumbnails, and finds one that was there. -/
theorem prepare_ensures
    {body : Bytes} (hmedia : a.fileType = .image ∨ a.fileType = .video)
    (hbody : d.files (a.bodyPath h) = some body)
    (hsafe : a.ThumbnailSafe h env d.files body) :
    (prepare h a body).Ensures env d
      (fun prepared d' => a.PrepareDone h body d.files prepared.thumb d'.files)
      (fun halt d' => a.PrepareHalted h env body d.files halt d'.files) := by
  unfold prepare
  rcases hmedia with hkind | hkind
  · rw [hkind]
    dsimp only
    unfold prepareImage
    rw [Exec.ensures_bind]
    refine (imageThumb_ensures hkind hbody hsafe).mono ?_
      (fun _ _ hhalt => ⟨hhalt.sought.mediaKept, hhalt.excused⟩)
    intro size d₁ hmade
    have hdone : a.PrepareDone h body d.files (some (a.canonicalThumb h)) d₁.files :=
      ⟨hmade.sought.mediaKept, hmade.ready, hmade.found, hmade.same⟩
    dsimp only
    rw [Exec.ensures_bind]
    refine ensures_noteThumbStatus (fun s => ?_) (fun hc s => ⟨hdone.media, hc⟩)
    rw [Exec.ensures_bind]
    exact writeMeta_ensures _ _ hdone
  · rw [hkind]
    dsimp only
    unfold prepareVideo
    rw [Exec.ensures_bind]
    refine (compressVideo_ensures hkind).mono ?_ ?_
    · rintro upload d₁ ⟨⟨hsame, hmanaged⟩, hvideo⟩
      have hfirst : a.MediaKept h d.files d₁.files :=
        hsame.mediaKept (fun hm => by rw [hmanaged hm])
      rw [Exec.ensures_bind]
      refine (videoThumb_ensures hkind (hsame.thumbnailSafe hsafe) hvideo).mono
        ?_ ?_
      · intro thumb d₂ hmade
        have hdone : a.PrepareDone h body d.files thumb d₂.files :=
          ⟨hfirst.trans hmade.sought.mediaKept, hsame.preparable.mp hmade.ready,
            hmade.found, fun t ht => hmade.same t (hsame.isThumbnail.mpr ht)⟩
        rw [Exec.ensures_bind, ensures_peekFiles]
        dsimp only
        rw [Exec.ensures_bind]
        exact writeMeta_ensures _ _ hdone
      · intro halt d₂ hhalt
        exact ⟨hfirst.trans hhalt.sought.mediaKept,
          hhalt.excused.mono hsame.preparable.mpr⟩
    · rintro halt d₁ ⟨⟨hsame, hmanaged⟩, hexcused⟩
      exact ⟨hsame.mediaKept (fun hm => by rw [hmanaged hm]), hexcused⟩

end Prepare

end PrivchatSdk
