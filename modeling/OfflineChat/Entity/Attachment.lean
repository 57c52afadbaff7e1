import OfflineChat.Json.Basic

/-! # Attachments

Files attached to a message, and how far their upload has come. -/

set_option autoImplicit false

namespace OfflineChat

/-- How far the upload of a file has come. -/
inductive UploadState where
  | idle
  | inProgress (bytesUploaded totalBytes : Int64)
  | success
  | failed (reason : String)
  deriving DecidableEq

/-- A file attached to a message. -/
structure Attachment where
  title : Option String
  mimeType : Option String
  fileSize : Int64
  url : Option String
  uploadState : UploadState
  extraData : ExtraData

/-- An attachment nothing is known of. -/
instance : Inhabited Attachment := ⟨⟨none, none, 0, none, .idle, .empty⟩⟩

end OfflineChat
