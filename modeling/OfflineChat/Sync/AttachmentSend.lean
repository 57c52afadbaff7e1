import OfflineChat.Remote.Error
import OfflineChat.Repository.Channels
import OfflineChat.Repository.Messages

/-! # Sending attachments

What is noted locally around the upload of a message's attachments. The message is written before
the upload starts, so that it is not lost; if the upload fails, it is written again with its new
status and the reason. Main definitions: `AttachmentSend.onRequest` and `AttachmentSend.onResult`.
-/

set_option autoImplicit false

namespace OfflineChat

/-- The message after a failed upload of its attachments. -/
def Message.afterFailedSend (m : Message) (classifier : Classifier) (now : Instant)
    (error : RemoteError) : Message :=
  { m with
    syncStatus := if classifier error m.cid then .failedPermanently else .syncNeeded
    syncDescription := some error.reason
    updatedLocallyAt := some now }

namespace AttachmentSend

/-- Before the upload: the message is written and becomes the last one of its channel. -/
def onRequest (message : Message) : Action Replica Unit := do
  Messages.insertMessage message true
  let _ ← Channels.updateLastMessage message.cid message

/-- After the upload: a failure is noted on the message, whose users are written with it. -/
def onResult (classifier : Classifier) (now : Instant) (message : Message) :
    Except RemoteError Message → Action Replica Unit
  | .ok _ => pure ()
  | .error error => do
      let failed := message.afterFailedSend classifier now error
      Users.insert failed.users
      Messages.insertMessage failed false

end AttachmentSend

end OfflineChat
