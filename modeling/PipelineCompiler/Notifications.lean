/-!
# Notifications

Chat channels that hear about the outcome of a task, and what they are told.
-/

namespace PipelineCompiler

/-- Channels and messages for the two outcomes of a task. A blank message is left to the caller. -/
structure Notifications where
  onSuccess : List String := []
  onSuccessMessage : String := ""
  onFailure : List String := []
  onFailureMessage : String := ""
deriving DecidableEq, Repr, Inhabited

/-- The text, or a fallback in place of a blank one. -/
def orElse (text fallback : String) : String := if text.isEmpty then fallback else text

namespace Notifications

/-- Some channel is told about some outcome. -/
def isDefined (n : Notifications) : Bool := !n.onSuccess.isEmpty || !n.onFailure.isEmpty

/-- The message for success, or a fallback in place of a blank one. -/
def successMessageOr (n : Notifications) (fallback : String) : String :=
  orElse n.onSuccessMessage fallback

/-- The message for failure, or a fallback in place of a blank one. -/
def failureMessageOr (n : Notifications) (fallback : String) : String :=
  orElse n.onFailureMessage fallback

end Notifications

end PipelineCompiler
