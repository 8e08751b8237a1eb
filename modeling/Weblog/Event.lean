import Weblog.Error

/-!
# Events

What the service reports about its work: an event has a level, a message and named fields. The
transitions of posts and categories are reported in the transaction that makes them or right after
it; a request is reported when it has been handled and when it is completed.
-/

namespace Weblog

/-- By what a request is known in the logs: a text the caller gave, or an identifier made for it. -/
inductive RequestId where
  | given (text : String)
  | generated (id : Uuid)
  /-- Nobody named the request. -/
  | unknown
  deriving DecidableEq

def RequestId.text : RequestId → String
  | .given text => text
  | .generated id => id.toText
  | .unknown => "unknown"

/-- What a request achieved. -/
inductive Handled where
  | postCreated (post : Uuid)
  | postUpdated (post : Uuid) (number : Int)
  | postPublished (post : Uuid)
  | draftDeleted (post : Uuid)
  | categoryCreated (category : Uuid)
  | categoryUpdated (category : Uuid)
  | categoriesAttached (version : Uuid)
  deriving DecidableEq

/-- Something that happened. -/
inductive Event where
  | draftAmended (post version : Uuid) (number : Int)
  | draftStacked (post version : Uuid) (number : Int)
  | versionPublished (post version : Uuid) (number : Int)
  | draftDeleted (post version : Uuid) (number : Int) (current : Option Uuid)
  | categoryRenamed (category : Uuid) (name : String)
  | categoryCreated (category : Uuid)
  | categoriesAttached (version : Uuid) (requested inserted : Nat)
  /-- A transaction could not be rolled back after an error. -/
  | rollbackFailed (error cause : Error)
  | beginFailed (cause : String)
  | databaseFailed (operation cause : String)
  | handled (request : RequestId) (what : Handled)
  | requestCompleted (status millis : Nat)
  | memoryChosen
  deriving DecidableEq

/-- How grave an event is. -/
inductive Level where
  | info
  | error
  deriving DecidableEq

def Level.name : Level → String
  | .info => "INFO"
  | .error => "ERROR"

namespace Event

/-- The value of a field. -/
inductive Value where
  | number (n : Int)
  | text (s : String)
  | request (id : RequestId)
  | millis (n : Nat)
  deriving DecidableEq

/-- How grave an event is. -/
def level : Event → Level
  | rollbackFailed .. | beginFailed _ | databaseFailed .. => .error
  | _ => .info

def message : Event → String
  | draftAmended .. => "draft amended"
  | draftStacked .. => "new draft stacked on published version"
  | versionPublished .. => "post version published"
  | draftDeleted .. => "draft deleted"
  | categoryRenamed .. => "category renamed"
  | categoryCreated _ => "category created"
  | categoriesAttached .. => "categories attached to post version"
  | rollbackFailed .. => "failed to rollback transaction"
  | beginFailed cause => "failed to begin transaction: " ++ cause
  | databaseFailed .. => "database error"
  | handled _ (.postCreated _) => "post created"
  | handled _ (.postUpdated ..) => "post updated"
  | handled _ (.postPublished _) => "post published"
  | handled _ (.draftDeleted _) => "draft deleted"
  | handled _ (.categoryCreated _) => "category created"
  | handled _ (.categoryUpdated _) => "category updated"
  | handled _ (.categoriesAttached _) => "categories attached"
  | requestCompleted .. => "request completed"
  | memoryChosen => "using in-memory storage"

/-- An identifier as the value of a field. -/
def Value.id (id : Uuid) : Value :=
  .text id.toText

/-- The fields that say which version of which post an event is about. -/
def versionFields (post version : Uuid) (number : Int) : List (String × Value) :=
  [("post_id", .id post), ("version_id", .id version), ("version_number", .number number)]

/-- The identifier of a version or its absence, as a text. -/
def currentText : Option Uuid → String
  | some version => "Some(" ++ version.toText ++ ")"
  | none => "None"

/-- The fields that say what a request achieved. -/
def handledFields : Handled → List (String × Value)
  | .postCreated post | .postPublished post | .draftDeleted post => [("post_id", .id post)]
  | .postUpdated post number => [("post_id", .id post), ("version_number", .number number)]
  | .categoryCreated category | .categoryUpdated category => [("category_id", .id category)]
  | .categoriesAttached version => [("post_version_id", .id version)]

def fields : Event → List (String × Value)
  | draftAmended post version number | draftStacked post version number
  | versionPublished post version number => versionFields post version number
  | draftDeleted post version number current =>
    versionFields post version number ++ [("current_version_id", .text (currentText current))]
  | categoryRenamed category name => [("category_id", .id category), ("name", .text name)]
  | categoryCreated category => [("category_id", .id category)]
  | categoriesAttached version requested inserted =>
    [("post_version_id", .id version), ("requested", .number requested),
      ("inserted", .number inserted)]
  | rollbackFailed error cause => [("error", .text error.message), ("cause", .text cause.message)]
  | beginFailed _ => []
  | databaseFailed operation cause => [("operation", .text operation), ("error", .text cause)]
  | handled request what => ("request_id", .request request) :: handledFields what
  | requestCompleted status millis => [("status", .number status), ("duration_ms", .millis millis)]
  | memoryChosen => []

end Event

end Weblog
