import PrivchatSdk.SyncPayload

/-!
# Where the files of a message lie

The files of a message lie in one directory below the root of its account:
`payload.{ext}`, `thumb.webp` and `meta.json`.  A path below the `files`
directory of the root is managed.

Paths are compared by their components.  The file system has no links here, and
no `..` is resolved.
-/

namespace PrivchatSdk

section Paths

/-- The components of a path; the root directory is the component `/`. -/
abbrev Path := List String

/-- `Path::new`. -/
def pathOf (text : String) : Path :=
  let names := ((text.toList.splitOn '/').map String.ofList).filter
    (fun c => c != "" && c != ".")
  if text.toList.head? = some '/' then "/" :: names else names

/-- `Path::parent`. -/
def parentOf (p : Path) : Option Path :=
  if p = [] ∨ p = ["/"] then none else some p.dropLast

/-- `Path::file_name`. -/
def fileName (p : Path) : Option String :=
  p.getLast?.filter (fun c => c != "/" && c != "..")

/-- `strip_prefix("file://")`, or the whole text. -/
def stripFileScheme (text : String) : String :=
  if "file://".toList.isPrefixOf text.toList then
    String.ofList (text.toList.drop 7)
  else
    text

/-- `rsplit(sep).next()`. -/
def lastPiece (sep : Char) (text : String) : String :=
  String.ofList ((text.toList.splitOn sep).getLast?.getD [])

end Paths

section Names

def thumbFilename : String := "thumb.webp"

def metaFilename : String := "meta.json"

/-- `ext_from_mime`. -/
def extFromMime (mime : String) : String :=
  match trim mime.toLower with
  | "image/jpeg" | "image/jpg" => "jpg"
  | "image/png" => "png"
  | "image/gif" => "gif"
  | "image/webp" => "webp"
  | "image/heic" => "heic"
  | "image/heif" => "heif"
  | "image/bmp" | "image/x-bmp" => "bmp"
  | "image/svg+xml" => "svg"
  | "image/tiff" => "tiff"
  | "video/mp4" => "mp4"
  | "video/quicktime" => "mov"
  | "video/x-matroska" => "mkv"
  | "video/webm" => "webm"
  | "video/x-msvideo" => "avi"
  | "video/3gpp" => "3gp"
  | "audio/mpeg" | "audio/mp3" => "mp3"
  | "audio/mp4" | "audio/x-m4a" => "m4a"
  | "audio/aac" => "aac"
  | "audio/ogg" | "audio/vorbis" => "ogg"
  | "audio/wav" | "audio/x-wav" => "wav"
  | "audio/flac" => "flac"
  | "audio/opus" => "opus"
  | "audio/amr" => "amr"
  | "application/pdf" => "pdf"
  | "application/zip" => "zip"
  | "application/x-rar-compressed" | "application/vnd.rar" => "rar"
  | "application/x-7z-compressed" => "7z"
  | "text/plain" => "txt"
  | _ => "bin"

/-- `ext_from_original_filename`. -/
def extFromOriginalFilename (filename : String) : Option String :=
  let ext := lastPiece '.' filename
  if ext = "" ∨ 10 < ext.utf8ByteSize then
    none
  else if ext.toList.all Char.isAlphanum then
    some ext
  else
    none

/-- The extension in `payload_filename_with_fallback`. -/
def payloadExt (mime : String) (originalFilename : Option String) : String :=
  if extFromMime mime != "bin" then
    extFromMime mime
  else
    match originalFilename.bind extFromOriginalFilename with
    | some ext => ext.toLower
    | none => "bin"

/-- `payload_filename_with_fallback`. -/
def payloadFilenameWithFallback
    (mime : String) (originalFilename : Option String) : String :=
  "payload." ++ payloadExt mime originalFilename

theorem payloadFilename_ne_thumb (mime : String) (original : Option String) :
    payloadFilenameWithFallback mime original ≠ thumbFilename := by
  intro h
  have hhead := congrArg (fun s => s.toList.head?) h
  simp [payloadFilenameWithFallback, thumbFilename] at hhead

theorem payloadFilename_ne_meta (mime : String) (original : Option String) :
    payloadFilenameWithFallback mime original ≠ metaFilename := by
  intro h
  have hhead := congrArg (fun s => s.toList.head?) h
  simp [payloadFilenameWithFallback, metaFilename] at hhead

/-- `guess_mime_type`. -/
def guessMimeType (filename : String) : String :=
  match (lastPiece '.' filename).toLower with
  | "jpg" | "jpeg" => "image/jpeg"
  | "png" => "image/png"
  | "gif" => "image/gif"
  | "webp" => "image/webp"
  | "heic" => "image/heic"
  | "mp4" => "video/mp4"
  | "mov" => "video/quicktime"
  | "mkv" => "video/x-matroska"
  | "mp3" => "audio/mpeg"
  | "wav" => "audio/wav"
  | "aac" => "audio/aac"
  | "m4a" => "audio/mp4"
  | "ogg" => "audio/ogg"
  | "pdf" => "application/pdf"
  | "txt" => "text/plain"
  | "json" => "application/json"
  | "zip" => "application/zip"
  | _ => "application/octet-stream"

/-- `default_mime_for_message_type`. -/
def defaultMimeForMessageType (messageType : Int) : String :=
  if messageType = ContentMessageType.image.toI32 then "image/jpeg"
  else if messageType = ContentMessageType.video.toI32 then "video/mp4"
  else if messageType = ContentMessageType.voice.toI32 then "audio/mp4"
  else "application/octet-stream"

/-- The file classes of the server. -/
inductive FileType where
  | image
  | video
  | voice
  | file
  deriving DecidableEq, Repr

def FileType.name : FileType → String
  | .image => "image"
  | .video => "video"
  | .voice => "voice"
  | .file => "file"

/-- `guess_file_type`. -/
def guessFileType (messageType : Int) (filename mime : String) : FileType :=
  if messageType = ContentMessageType.image.toI32 then .image
  else if messageType = ContentMessageType.video.toI32 then .video
  else if messageType = ContentMessageType.voice.toI32 then .voice
  else if "image/".toList.isPrefixOf mime.toList then .image
  else if "video/".toList.isPrefixOf mime.toList then .video
  else
    match (lastPiece '.' filename).toLower with
    | "jpg" | "jpeg" | "png" | "gif" | "webp" | "bmp" | "heic" => .image
    | "mp4" | "mov" | "mkv" | "avi" | "webm" => .video
    | _ => .file

end Names

section Directories

/-- `get_message_dir`; the month is printed from the creation time. -/
def messageDir (userRoot : Path) (yearMonth : String) (messageId : Nat) : Path :=
  userRoot ++ ["files", yearMonth, toString messageId]

/-- `managed_source_path`. -/
def managedSourcePath (content : String) (userRoot : Path) : Option Path :=
  let path := pathOf (stripFileScheme content)
  if (userRoot ++ ["files"]).isPrefixOf path then some path else none

/-- What lies below the message directories is managed. -/
theorem managedSourcePath_of_below
    {content : String} {userRoot rest : Path}
    (h : pathOf (stripFileScheme content) = userRoot ++ ("files" :: rest)) :
    managedSourcePath content userRoot =
      some (pathOf (stripFileScheme content)) := by
  have hbelow : (userRoot ++ ["files"]).isPrefixOf
      (pathOf (stripFileScheme content)) = true := by
    rw [h, List.isPrefixOf_iff_prefix]
    exact ⟨rest, by simp⟩
  simp [managedSourcePath, hbelow]

end Directories

end PrivchatSdk
