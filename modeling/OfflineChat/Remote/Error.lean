/-! # Failures of the remote service

What the remote service answers instead of an acknowledgement, and which of these answers are final.
Main definitions: `RemoteError`, `RemoteError.isPermanent`, and `Classifier`, the judgement that a
sync pass uses. -/

set_option autoImplicit false

namespace OfflineChat

/-- The failure of one submission. -/
inductive RemoteError where
  /-- The service answered with an error of its own. -/
  | network (serviceCode : Int) (httpStatus : Nat) (message : String)
  /-- No answer came in time. -/
  | timeout
  /-- The service could not be reached. -/
  | connection (message : String)
  /-- The answer made no sense. -/
  | parse (message : String)
  /-- Something else went wrong. -/
  | other (message : String)
  deriving DecidableEq

namespace RemoteError

/-- The service's code for a message that failed moderation. -/
def moderationCode : Int := 73

/-- The service's code for a client that asks too often. -/
def rateLimitCode : Int := 9

/-- The status of an answer to a client that asks too often. -/
def tooManyRequests : Nat := 429

/-- The text of a failure. -/
def message : RemoteError → String
  | network serviceCode httpStatus message =>
      s!"Network error {httpStatus} (code {serviceCode}): {message}"
  | timeout => "Request timed out"
  | connection message => s!"Connection error: {message}"
  | parse message => s!"Response parse error: {message}"
  | other message => message

/-- The service refused the content. -/
def isModeration : RemoteError → Bool
  | network serviceCode _ _ => serviceCode == moderationCode
  | _ => false

/-- Refused content and client errors are permanent, unless the service asks to slow down. -/
def isPermanent : RemoteError → Bool
  | network serviceCode httpStatus _ =>
      serviceCode == moderationCode ||
        (400 ≤ httpStatus && httpStatus < 500 && httpStatus != tooManyRequests &&
          serviceCode != rateLimitCode)
  | _ => false

/-- The reason shown next to an entity that failed. -/
def reason : RemoteError → String
  | e@(network _ _ message) =>
      if e.isModeration then s!"message failed moderation: {message}" else e.message
  | e => e.message

end RemoteError

/-- Says whether a failure is permanent for an entity of the given channel. -/
abbrev Classifier := RemoteError → String → Bool

/-- The judgement by the failure alone. -/
def Classifier.standard : Classifier := fun e _ => e.isPermanent

end OfflineChat
