import Mathlib.Logic.Function.Basic
import PrivchatSdk.MediaStore
import PrivchatSdk.OutboundDrain

/-!
# One send attempt of an attachment

An attempt reads the body, lays `payload.{ext}`, `thumb.webp` and `meta.json`
into the directory of the message, uploads the thumbnail and the body, sends the
message and writes the content it sent back into the row.  Only then, in a
transaction of its own, the drain acknowledges.

The process may die after every step, a file step may fail and leave a beginning
of what it wrote, and every answer of the server may be an error, also the one
to a message that the server accepted.  What an attempt read and uploaded is
recorded beside the state.
-/

namespace PrivchatSdk

open StatementExec RelTable

section Host

abbrev Bytes := List UInt8

abbrev Files := Path → Option Bytes

/-- The columns of a message that `process_outbound_file` reads. -/
structure Attachment where
  messageId : Nat
  fromUid : Nat
  messageType : Int
  content : String
  createdAt : Int
  extra : String
  deriving DecidableEq, Repr

def StoredMessage.attachment (msg : StoredMessage) : Attachment where
  messageId := msg.messageId
  fromUid := msg.fromUid
  messageType := msg.messageType
  content := msg.content
  createdAt := msg.createdAt
  extra := msg.extra

inductive MediaProcessOp where
  | compress
  | thumbnail
  deriving DecidableEq, Repr

/-- What the video hook did; unless it produced a file it left all files alone. -/
inductive HookRun where
  | failed
  | declined
  | produced (output : Bytes)
  deriving DecidableEq, Repr

structure MediaThumbnailMeta where
  width : Option Nat
  height : Option Nat
  fileSize : Option Nat
  mime : Option String
  deriving DecidableEq, Repr

/-- `MediaMeta`; the strategy is always `client_preprocess`. -/
structure MediaMeta where
  originalFilename : String
  mime : String
  width : Option Nat
  height : Option Nat
  fileSize : Option Nat
  thumbnail : Option MediaThumbnailMeta
  createdAt : Int
  deriving DecidableEq, Repr

/--
The account's directory, and what the program takes from outside: the month of a
creation time, the image decoder and encoder, the video hook and the printers.
Decoding depends on the name of the file and its bytes.
-/
structure MediaHost where
  userRoot : Path
  yearMonth : Int → String
  decodeImage : String → Bytes → Option (Nat × Nat)
  /-- An empty file is no image. -/
  decode_empty : ∀ name, decodeImage name [] = none
  encodeThumb : String → Bytes → Nat × Nat → Bytes
  hook : Option (MediaProcessOp → Bytes → HookRun)
  /-- There is an event channel to ask the application over. -/
  asksHost : Bool
  codec : Codec
  encodeMeta : MediaMeta → Bytes

structure UploadedFileInfo where
  fileId : String
  storageSourceId : Nat
  fileUrl : String
  thumbnailUrl : Option String
  fileSize : Nat
  deriving DecidableEq, Repr

structure SendMessageResponse where
  serverMessageId : Nat
  messageSeq : Int
  deriving DecidableEq, Repr

/-- The errors of `process_outbound_file`; those of the network know their kind. -/
inductive SendError where
  | invalidState (text : String)
  | storage (text : String)
  | serialization (text : String)
  | network (retryable : Bool)
  deriving DecidableEq, Repr

/-- `is_retryable`. -/
def SendError.isRetryable : SendError → Bool
  | .network retryable => retryable
  | _ => false

end Host

section Layout

namespace Attachment

variable (h : MediaHost) (a : Attachment)

def originalFilename : Option String :=
  (fileName (pathOf a.content)).filter
    (fun name => name != "" && name.toList.head? != some '[')

def mimeType : String :=
  match a.originalFilename with
  | some name => guessMimeType name
  | none => defaultMimeForMessageType a.messageType

def filename : String :=
  payloadFilenameWithFallback a.mimeType a.originalFilename

def fileType : FileType :=
  guessFileType a.messageType a.filename a.mimeType

/-- The path that the body is read from. -/
def sourcePath : Path :=
  pathOf (stripFileScheme a.content)

def filesDir : Path :=
  messageDir h.userRoot (h.yearMonth a.createdAt) a.messageId

def bodyPath : Path :=
  a.filesDir h ++ [a.filename]

def metaPath : Path :=
  a.filesDir h ++ [metaFilename]

def canonicalThumb : Path :=
  a.filesDir h ++ [thumbFilename]

/-- `source_is_already_managed`. -/
def isManaged : Bool :=
  (managedSourcePath a.content h.userRoot).isSome

/-- The thumbnail beside a managed source. -/
def sourceThumb : Option Path :=
  (managedSourcePath a.content h.userRoot).bind
    (fun source => (parentOf source).map (fun dir => dir ++ [thumbFilename]))

/-- The thumbnail beside a managed source, where there is one. -/
def managedThumb (files : Files) : Option Path :=
  (a.sourceThumb h).filter (fun p => (files p).isSome)

theorem bodyPath_ne_canonicalThumb : a.bodyPath h ≠ a.canonicalThumb h := by
  intro heq
  have hname := List.append_cancel_left heq
  exact payloadFilename_ne_thumb _ _ (List.cons.inj hname).1

theorem bodyPath_ne_metaPath : a.bodyPath h ≠ a.metaPath h := by
  intro heq
  have hname := List.append_cancel_left heq
  exact payloadFilename_ne_meta _ _ (List.cons.inj hname).1

theorem metaPath_ne_canonicalThumb : a.metaPath h ≠ a.canonicalThumb h := by
  intro heq
  have hname := List.append_cancel_left heq
  exact absurd (List.cons.inj hname).1 (by decide)

/-- The thumbnail beside a source is called `thumb.webp`. -/
theorem getLast_sourceThumb {p : Path} (hp : a.sourceThumb h = some p) :
    p.getLast? = some thumbFilename := by
  obtain ⟨source, -, hdir⟩ := Option.bind_eq_some_iff.mp hp
  obtain ⟨dir, -, rfl⟩ := Option.map_eq_some_iff.mp hdir
  simp

theorem bodyPath_ne_sourceThumb {p : Path} (hp : a.sourceThumb h = some p) :
    a.bodyPath h ≠ p := by
  rintro rfl
  have hlast := a.getLast_sourceThumb h hp
  simp [bodyPath, filename, payloadFilename_ne_thumb] at hlast

theorem metaPath_ne_sourceThumb {p : Path} (hp : a.sourceThumb h = some p) :
    a.metaPath h ≠ p := by
  rintro rfl
  have hlast := a.getLast_sourceThumb h hp
  simp [metaPath, metaFilename, thumbFilename] at hlast

/-- A source in the directory of the message is managed. -/
theorem isManaged_of_bodyPath (hsource : a.sourcePath = a.bodyPath h) :
    a.isManaged h = true := by
  have hbelow : pathOf (stripFileScheme a.content) = h.userRoot ++
      ("files" :: [h.yearMonth a.createdAt, toString a.messageId, a.filename]) := by
    rw [← Attachment.sourcePath, hsource]
    simp [bodyPath, filesDir, messageDir]
  simp [isManaged, managedSourcePath_of_below hbelow]

end Attachment

end Layout

section Wire

variable (codec : Codec)

/-- `pick_u64_from_extra`. -/
def Codec.pickU64FromExtra (extra key : String) : Option Nat :=
  (codec.parse extra).bind (fun value =>
    ((value.get key).or ((value.get "metadata").bind (fun v => v.get key))).bind
      Json.asU64)

/-- `insert` of a JSON object. -/
def Json.insert (key : String) (value : Json) : Json → Json
  | .obj members => .obj (members.filter (fun m => m.1 != key) ++ [(key, value)])
  | v => v

/-- A length or size of the sender's device, cut to 32 bits. -/
def Json.ofU32 (n : Nat) : Json :=
  .int (Int.ofNat (min n 4294967295))

/-- `merge_voice_metadata`. -/
def Codec.mergeVoiceMetadata (extra : String) (content : Json) : Json :=
  content.insert "duration"
    (Json.ofU32 ((codec.pickU64FromExtra extra "duration").getD 1))

/-- `merge_video_metadata`. -/
def Codec.mergeVideoMetadata (extra : String) (content : Json) : Json :=
  ["duration", "width", "height", "thumbnail_width", "thumbnail_height"].foldl
    (fun content key =>
      match codec.pickU64FromExtra extra key with
      | some n => content.insert key (Json.ofU32 n)
      | none => content) content

/-- `wire_display_filename`. -/
def Codec.wireDisplayFilename (extra uploadFilename : String) : String :=
  let named := ((codec.parse extra).bind (fun v => v.get "file_name")).bind
    Json.asStr
  let base := named.map (fun s => trim (lastPiece '\\' (lastPiece '/' s)))
  (base.filter (fun s => s != "" && s != "." && s != "..")).getD uploadFilename

structure AttachmentWireInput where
  fileType : FileType
  fileId : Nat
  uploaded : UploadedFileInfo
  thumbnail : Option (Nat × String)
  filename : String
  mimeType : String
  width : Option Nat
  height : Option Nat
  messageType : Int
  extra : String
  deriving DecidableEq, Repr

/-- `build_attachment_wire_content`. -/
def Codec.buildAttachmentWireContent (input : AttachmentWireInput) : Json :=
  let thumbnail : Option (Nat × String) := match input.thumbnail with
    | some reference => some reference
    | none =>
        if input.fileType = FileType.image then some (input.fileId, input.uploaded.fileUrl)
        else none
  let head : List (String × Json) := [("file_type", .str input.fileType.name),
    ("file_id", .int input.fileId)]
  let middle : List (String × Json) := [("filename", .str input.filename),
    ("mime_type", .str input.mimeType),
    ("storage_source_id", .int input.uploaded.storageSourceId),
    ("file_size", .int input.uploaded.fileSize),
    ("file_url", .str input.uploaded.fileUrl)]
  let tail : List (String × Json) := [("width", .int (input.width.getD 0)),
    ("height", .int (input.height.getD 0))]
  let content := match thumbnail with
    | some (id, url) =>
        Json.obj (head ++ [("thumbnail_file_id", .int id)] ++ middle ++
          [("thumbnail_url", .str url)] ++ tail)
    | none =>
        Json.obj (head ++ middle ++
          [("thumbnail_url", match input.uploaded.thumbnailUrl with
            | some url => .str url
            | none => .null)] ++ tail)
  if input.messageType = ContentMessageType.voice.toI32 then
    codec.mergeVoiceMetadata input.extra content
  else if input.messageType = ContentMessageType.video.toI32 then
    codec.mergeVideoMetadata input.extra content
  else
    content

end Wire

section State

/-- The steps of an attempt that may fail, or that the process may die after. -/
inductive Step where
  | readBody
  | storagePaths
  | createDir
  | writeBody
  | compressVideo
  | readCompressed
  | copyThumb
  | thumbHook
  | mediaJob
  | generateThumb
  | thumbStatus
  | writeMeta
  | readThumb
  | uploadThumb
  | thumbCallback
  | uploadBody
  | bodyCallback
  | sendMessage
  | writeContent
  deriving DecidableEq, Repr

/-- A failed write leaves the file alone, or cuts it to a beginning of the new bytes. -/
inductive FileFault where
  | untouched
  | torn (written : Nat)
  deriving DecidableEq, Repr

/-- The answer to the message: the server may accept it and the answer be lost. -/
inductive SendAnswer where
  | accepted (response : SendMessageResponse)
  | lost (e : SendError)
  | refused (e : SendError)
  deriving DecidableEq, Repr

/-- What an attempt meets. -/
structure SendEnv where
  pass : DrainPass
  ioFault : Step → Option FileFault
  /-- The step after which the process dies. -/
  crash : Option Step
  nowSecs : Int
  /-- What the application made for an asynchronous thumbnail job in time. -/
  mediaJob : Option Bytes
  uploadThumb : Except SendError UploadedFileInfo
  thumbCallback : Except SendError PUnit
  uploadBody : Except SendError UploadedFileInfo
  bodyCallback : Except SendError PUnit
  send : SendAnswer

/-- Why an attempt ended early. -/
inductive Halt where
  | crash
  | stop (e : SendError)
  | store (e : StoreError)
  deriving DecidableEq, Repr

/--
The device, and the record of the attempts, newest first: the bodies they read
(`none` where there was no file), the thumbnails they uploaded, and the bodies
they uploaded with the thumbnail uploaded before; and whether the server
accepted the message.
-/
structure Device where
  store : Store
  files : Files
  reads : List (Option Bytes)
  thumbs : List Bytes
  bodies : List (Option Bytes × Bytes)
  accepted : Bool

abbrev SendM (α : Type) : Type :=
  Exec SendEnv Device Halt α

/-- The process may die here. -/
def crashPoint (step : Step) : SendM PUnit :=
  fun env d => if env.crash = some step then (.error .crash, d) else (.ok .unit, d)

/-- A step without an effect on the files. -/
def ioStep (step : Step) (e : SendError) : SendM PUnit :=
  fun env d =>
    if (env.ioFault step).isSome then (.error (.stop e), d) else (.ok .unit, d)

def peekFiles : SendM Files :=
  fun _ d => (.ok d.files, d)

/-- What the attempt meets, read off its environment. -/
def ofEnv {α : Type} (f : SendEnv → α) : SendM α :=
  fun env d => (.ok (f env), d)

/-- `std::fs::write`. -/
def writeFile (step : Step) (text : String) (path : Path) (bytes : Bytes) :
    SendM PUnit :=
  fun env d =>
    match env.ioFault step with
    | none =>
        (.ok .unit, { d with files := Function.update d.files path (some bytes) })
    | some .untouched => (.error (.stop (.storage text)), d)
    | some (.torn written) =>
        (.error (.stop (.storage text)),
          { d with files :=
              Function.update d.files path (some (bytes.take written)) })

/-- The file as the video hook left it. -/
def replaceFile (path : Path) (bytes : Bytes) : SendM PUnit :=
  fun _ d =>
    (.ok .unit, { d with files := Function.update d.files path (some bytes) })

/-- `std::fs::copy`, which cuts the target before it reads the source. -/
def copyFile (step : Step) (text : String) (source target : Path) : SendM PUnit := do
  let files ← peekFiles
  match files source with
  | none => Exec.fail (.stop (.storage text))
  | some bytes =>
      writeFile step text target (if source = target then [] else bytes)

/-- An answer of the server. -/
def answer {α : Type} (f : SendEnv → Except SendError α) : SendM α :=
  fun env d =>
    match f env with
    | .ok a => (.ok a, d)
    | .error e => (.error (.stop e), d)

/-- An operation of the account database. -/
def onStore {α : Type} (messageId : Nat) (x : StoreM α) : SendM α :=
  fun env d =>
    match x (env.pass.commandEnv messageId) d.store with
    | (.ok a, s) => (.ok a, { d with store := s })
    | (.error e, s) => (.error (.store e), { d with store := s })

end State

section Media

variable (h : MediaHost) (a : Attachment)

/-- `update_thumb_status`. -/
def updateThumbStatus (messageId : Nat) (thumbStatus : Int) : StoreM Nat := do
  let now ← nowMs
  modifyMessage "update thumb_status" (fun r => r.id == messageId)
    (fun r => { r with thumbStatus := thumbStatus, updatedAt := now })
    (fun _ => rfl) (fun _ => rfl)

/-- The thumbnail state is noted; that this fails does not matter. -/
def noteThumbStatus (messageId : Nat) (thumbStatus : Int) : SendM PUnit := do
  let _ ← (onStore messageId (updateThumbStatus messageId thumbStatus)).attempt
  crashPoint .thumbStatus

/-- The size of a thumbnail in `generate_image_thumbnail_sync`. -/
def thumbnailSize (width height maxEdge : Nat) : Nat × Nat :=
  if height ≤ width then
    (max (min width maxEdge) 1, max (height * max (min width maxEdge) 1 / width) 1)
  else
    (max (width * max (min height maxEdge) 1 / height) 1, max (min height maxEdge) 1)

/-- The bytes that `generate_image_thumbnail_sync` writes. -/
def MediaHost.thumbnailOf (name : String) (source : Bytes) : Option Bytes :=
  (h.decodeImage name source).map
    (fun size => h.encodeThumb name source (thumbnailSize size.1 size.2 320))

/-- `generate_image_thumbnail_sync`, from the file of a name with these bytes. -/
def generateImageThumbnail
    (name : String) (source : Option Bytes) (output : Path) :
    SendM (Nat × Nat × Nat) :=
  match source.bind (fun bytes =>
      (h.decodeImage name bytes).map (fun size => (bytes, size))) with
  | none => Exec.fail (.stop (.storage "decode image failed"))
  | some (bytes, size) => do
      let (width, height) := thumbnailSize size.1 size.2 320
      let thumb := h.encodeThumb name bytes (width, height)
      writeFile .generateThumb "create thumb failed" output thumb
      crashPoint .generateThumb
      pure (width, height, thumb.length)

/-- A thumbnail that decodes: its size on the screen and on the disk. -/
def usableThumb (bytes : Option Bytes) : Option (Nat × Nat × Nat) :=
  match bytes with
  | none => none
  | some bytes =>
      if bytes.length = 0 then
        none
      else
        (h.decodeImage thumbFilename bytes).map
          (fun size => (size.1, size.2, bytes.length))

/-- Take over the thumbnail beside a managed image, if it decodes. -/
def reuseThumb : SendM (Option (Nat × Nat × Nat)) := do
  let files ← peekFiles
  match a.managedThumb h files with
  | none => pure none
  | some sourceThumb =>
      if sourceThumb = a.canonicalThumb h then
        pure (usableThumb h (files (a.canonicalThumb h)))
      else do
        let copied ← (copyFile .copyThumb "copy thumb failed" sourceThumb
          (a.canonicalThumb h)).attempt
        crashPoint .copyThumb
        match copied with
        | .error _ => pure none
        | .ok _ => do
            let files ← peekFiles
            pure (usableThumb h (files (a.canonicalThumb h)))

/-- What the preparation leaves for the upload. -/
structure Prepared where
  thumb : Option Path
  upload : Bytes
  width : Option Nat
  height : Option Nat
  deriving DecidableEq, Repr

def writeMeta
    (prepared : Prepared) (thumbnail : Option MediaThumbnailMeta) :
    SendM PUnit := do
  let now ← ofEnv SendEnv.nowSecs
  writeFile .writeMeta "write media meta failed" (a.metaPath h)
    (h.encodeMeta
      { originalFilename := a.originalFilename.getD ""
        mime := a.mimeType
        width := prepared.width
        height := prepared.height
        fileSize := some prepared.upload.length
        thumbnail := thumbnail
        createdAt := now })
  crashPoint .writeMeta

/-- The thumbnail taken over, or a new one from the body. -/
def imageThumb : SendM (Nat × Nat × Nat) := do
  let reused ← reuseThumb h a
  match reused with
  | some found => pure found
  | none => do
      let files ← peekFiles
      generateImageThumbnail h a.filename (files (a.bodyPath h))
        (a.canonicalThumb h)

def prepareImage (body : Bytes) : SendM Prepared := do
  let size := h.decodeImage a.filename body
  let (width, height, thumbSize) ← imageThumb h a
  noteThumbStatus a.messageId 1
  let prepared : Prepared :=
    { thumb := some (a.canonicalThumb h)
      upload := body
      width := size.map Prod.fst
      height := size.map Prod.snd }
  writeMeta h a prepared
    (some { width := some width
            height := some height
            fileSize := some thumbSize
            mime := some "image/webp" })
  pure prepared

/-- The hook writes the compressed video over the body; a managed one is left. -/
def compressVideo (body : Bytes) : SendM Bytes :=
  match a.isManaged h, h.hook with
  | false, some hook =>
      match hook .compress body with
      | .failed => Exec.fail (.stop (.storage "video compress hook failed"))
      | .declined => do
          crashPoint .compressVideo
          pure body
      | .produced output => do
          replaceFile (a.bodyPath h) output
          crashPoint .compressVideo
          ioStep .readCompressed (.storage "read compressed video failed")
          pure output
  | _, _ => pure body

/-- Take over the thumbnail beside a managed video. -/
def copyVideoThumb : SendM (Option Path) := do
  let files ← peekFiles
  match a.managedThumb h files with
  | none => pure none
  | some sourceThumb => do
      copyFile .copyThumb "copy managed video thumbnail failed" sourceThumb
        (a.canonicalThumb h)
      crashPoint .copyThumb
      noteThumbStatus a.messageId 1
      pure (some (a.canonicalThumb h))

/-- A thumbnail that is there and not empty is used as it is. -/
def presentThumb (found : Option Path) : SendM (Option Path) := do
  let files ← peekFiles
  if 0 < ((files (a.canonicalThumb h)).getD []).length then do
    noteThumbStatus a.messageId 1
    pure (some (a.canonicalThumb h))
  else
    pure found

/-- Encode a frame as the thumbnail; that this fails does not matter. -/
def frameThumb (frame : Bytes) : SendM (Option Path) := do
  let encoded ← (do
    let _ ← generateImageThumbnail h "thumb.src.jpg" (some frame)
      (a.canonicalThumb h)
    noteThumbStatus a.messageId 1 : SendM PUnit).attempt
  match encoded with
  | .ok _ => pure (some (a.canonicalThumb h))
  | .error .crash => Exec.fail .crash
  | .error _ => pure none

/-- A frame from the hook. -/
def hookThumb (video : Bytes) : SendM (Option Path) :=
  match h.hook with
  | none => pure none
  | some hook =>
      match hook .thumbnail video with
      | .failed => Exec.fail (.stop (.storage "video thumbnail hook failed"))
      | .declined => do
          crashPoint .thumbHook
          pure none
      | .produced frame => do
          crashPoint .thumbHook
          frameThumb h a frame

/-- A frame from the application, asked for over the event channel. -/
def jobThumb : SendM (Option Path) := do
  let made ← ofEnv SendEnv.mediaJob
  crashPoint .mediaJob
  match h.asksHost, made with
  | true, some frame => frameThumb h a frame
  | _, _ => pure none

/-- A new thumbnail for a video that has none; if there is none, this is noted. -/
def makeVideoThumb (video : Bytes) : SendM (Option Path) := do
  let hooked ← hookThumb h a video
  match hooked with
  | some path => pure (some path)
  | none => do
      let made ← jobThumb h a
      match made with
      | some path => pure (some path)
      | none => do
          noteThumbStatus a.messageId 3
          pure none

/-- The thumbnail of a video; a managed video gets no new one. -/
def videoThumb (video : Bytes) : SendM (Option Path) := do
  let copied ← copyVideoThumb h a
  let found ← presentThumb h a copied
  if a.isManaged h || found.isSome then
    pure found
  else
    makeVideoThumb h a video

def prepareVideo (body : Bytes) : SendM Prepared := do
  let upload ← compressVideo h a body
  let thumb ← videoThumb h a upload
  let files ← peekFiles
  let prepared : Prepared :=
    { thumb := thumb, upload := upload, width := none, height := none }
  writeMeta h a prepared
    (thumb.map (fun path =>
      { width := none
        height := none
        fileSize := some ((files path).getD []).length
        mime := some "image/webp" }))
  pure prepared

def prepareOther (body : Bytes) : SendM Prepared := do
  let prepared : Prepared :=
    { thumb := none, upload := body, width := none, height := none }
  writeMeta h a prepared none
  pure prepared

def prepare (body : Bytes) : SendM Prepared :=
  match a.fileType with
  | .image => prepareImage h a body
  | .video => prepareVideo h a body
  | _ => prepareOther h a body

end Media

section Process

variable (h : MediaHost) (a : Attachment)

/-- The file at the source path. -/
def readSource (path : Path) : SendM Bytes :=
  fun env d =>
    if (env.ioFault .readBody).isSome then
      (.error (.stop (.invalidState "attachment source unreadable")), d)
    else
      match d.files path with
      | none =>
          (.error (.stop (.invalidState "attachment source unreadable")),
            { d with reads := none :: d.reads })
      | some body => (.ok body, { d with reads := some body :: d.reads })

/-- The body that came with the command. -/
def takePayload (payload : Bytes) : SendM Bytes :=
  fun _ d => (.ok payload, { d with reads := some payload :: d.reads })

/-- The body: from the command, or from the path that is the content. -/
def readBody (payload : Bytes) : SendM Bytes :=
  if payload.isEmpty then readSource a.sourcePath else takePayload payload

/-- Read the body and lay it into the directory of the message. -/
def stageBody (payload : Bytes) : SendM Bytes := do
  let body ← readBody a payload
  crashPoint .readBody
  if body.isEmpty then
    Exec.fail (.stop (.invalidState "attachment payload is empty"))
  else do
    ioStep .storagePaths (.storage "get storage paths")
    ioStep .createDir (.storage "create files dir failed")
    crashPoint .createDir
    writeFile .writeBody "write body file failed" (a.bodyPath h) body
    crashPoint .writeBody
    pure body

def recordThumb (bytes : Bytes) : SendM PUnit :=
  fun _ d => (.ok .unit, { d with thumbs := bytes :: d.thumbs })

def recordBody (thumb : Option Bytes) (bytes : Bytes) : SendM PUnit :=
  fun _ d => (.ok .unit, { d with bodies := (thumb, bytes) :: d.bodies })

/-- Upload the thumbnail; the bytes read are the ones uploaded. -/
def uploadThumbnail : Option Path → SendM (Option (Bytes × UploadedFileInfo))
  | none => pure none
  | some path => do
      ioStep .readThumb (.storage "read thumb file failed")
      let files ← peekFiles
      match files path with
      | none => Exec.fail (.stop (.storage "stat thumb file failed"))
      | some bytes => do
          recordThumb bytes
          let uploaded ← answer SendEnv.uploadThumb
          crashPoint .uploadThumb
          let _ ← answer SendEnv.thumbCallback
          crashPoint .thumbCallback
          pure (some (bytes, uploaded))

def parseFileId (text : String) (fileId : String) : SendM Nat :=
  match parseU64 fileId with
  | some n => pure n
  | none => Exec.fail (.stop (.serialization text))

/-- The ids of the thumbnail and of the body, as the message carries them. -/
def parseFileIds
    (thumb : Option (Bytes × UploadedFileInfo)) (uploaded : UploadedFileInfo) :
    SendM (Nat × Option (Nat × String)) := do
  let fileId ← parseFileId "upload response invalid numeric file_id" uploaded.fileId
  match thumb with
  | none => pure (fileId, none)
  | some (_, info) => do
      let thumbId ← parseFileId
        "upload response invalid numeric thumbnail_file_id" info.fileId
      pure (fileId, some (thumbId, info.fileUrl))

/-- `build_send_message_request_with_content`. -/
def buildRequest : SendM PUnit :=
  fun env d =>
    if typeFits a.messageType && env.pass.encodes a.messageId then
      (.ok .unit, d)
    else
      (.error (.stop (.serialization "build send message request")), d)

/-- `direct_send_message`. -/
def directSendMessage : SendM SendMessageResponse :=
  fun env d =>
    match env.send with
    | .accepted response => (.ok response, { d with accepted := true })
    | .lost e => (.error (.stop e), { d with accepted := true })
    | .refused e => (.error (.stop e), d)

/-- Send, and write the content back; that the last fails does not matter. -/
def sendContent (content : String) : SendM SendMessageResponse := do
  buildRequest a
  let response ← directSendMessage
  crashPoint .sendMessage
  let _ ← (onStore a.messageId
    (updateMessageContentLocal a.messageId content)).attempt
  crashPoint .writeContent
  pure response

/-- Upload the thumbnail and the body, and send the message about them. -/
def deliver (prepared : Prepared) : SendM SendMessageResponse := do
  let thumb ← uploadThumbnail prepared.thumb
  recordBody (thumb.map Prod.fst) prepared.upload
  let uploaded ← answer SendEnv.uploadBody
  crashPoint .uploadBody
  let _ ← answer SendEnv.bodyCallback
  crashPoint .bodyCallback
  let (fileId, thumbnail) ← parseFileIds thumb uploaded
  sendContent a (h.codec.print (h.codec.buildAttachmentWireContent
    { fileType := a.fileType
      fileId := fileId
      uploaded := uploaded
      thumbnail := thumbnail
      filename := h.codec.wireDisplayFilename a.extra a.filename
      mimeType := a.mimeType
      width := prepared.width
      height := prepared.height
      messageType := a.messageType
      extra := a.extra }))

/-- `process_outbound_file`. -/
def processOutboundFile (payload : Bytes) : SendM SendMessageResponse := do
  let body ← stageBody h a payload
  let prepared ← prepare h a body
  deliver h a prepared

end Process

section Drain

/-- The attachment command of a message. -/
def Store.attachmentCommand (s : Store) (messageId : Nat) : Option OutboxRow :=
  s.outbox.rows.find?
    (fun o => o.messageId == some messageId && o.commandType == "attachment")

/-- The drain after the attempt: acknowledge, reconcile, defer or reject. -/
def settleAttachment
    (messageId : Nat) (retryCount : Int)
    (attempt : SendM SendMessageResponse) : SendM PUnit :=
  fun env d =>
    match attempt env d with
    | (.ok response, d') =>
        ((do
          let _ ← onStore messageId (commitAccepted env.pass messageId retryCount
            response.serverMessageId response.messageSeq)
          pure .unit : SendM PUnit)) env d'
    | (.error (.stop e), d') =>
        ((do
          let _ ← onStore messageId
            (settleFailed env.pass messageId retryCount e.isRetryable)
          pure .unit : SendM PUnit)) env d'
    | (.error halt, d') => (.error halt, d')

/-- One turn of the attachment queue; an error of its reads leaves the loop. -/
def drainAttachment (h : MediaHost) (messageId : Nat) (command : OutboxRow) :
    SendM PUnit := do
  let found ← onStore messageId (getMessageById messageId)
  match found with
  | none => do
      let _ ← (onStore messageId (outboxDrop messageId)).attempt
      pure .unit
  | some msg => do
      let fresh ← ofEnv (fun env => env.pass.fresh messageId)
      let _ ← onStore messageId (ensureLocalMessageId messageId fresh)
      settleAttachment messageId command.retryCount
        (processOutboundFile h msg.attachment command.payload)

/-- One attempt, if the message still has its command. -/
def Device.attempt (h : MediaHost) (messageId : Nat) (d : Device) (env : SendEnv) :
    Device :=
  match d.store.attachmentCommand messageId with
  | none => d
  | some command => (drainAttachment h messageId command).after env d

end Drain

end PrivchatSdk
