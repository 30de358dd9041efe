import GlyphStack.Editor.Capabilities
import GlyphStack.Editor.Diagnostic

/-!
# Requests of an editor

A message has the name of a method and parameters in JSON.  Parameters that do
not fit the shape of the method spoil the message.  A parameter that is missing
or null has its zero value.  Of a parameter that is given more than once the
last value counts, and of an object the members of all its values together.
-/

namespace GlyphStack
namespace Editor

/-- A change to a document. -/
inductive Change where
  /-- The whole text is replaced. -/
  | whole (text : String)
  /-- A part of the text is replaced. -/
  | part
  deriving DecidableEq, Repr

/-- What an editor asks for. -/
inductive Request where
  /-- Begin a session. -/
  | begin
  /-- The session has begun. -/
  | begun
  /-- End the session. -/
  | shutdown
  /-- Choose how much is traced. -/
  | setTrace
  /-- A document was opened. -/
  | didOpen (uri text : String)
  /-- A document was changed. -/
  | didChange (uri : String) (changes : List Change)
  /-- A document was closed. -/
  | didClose (uri : String)
  /-- The operators to offer. -/
  | completion
  /-- The description of a place in a document. -/
  | hover (uri : String) (cursor : Cursor)
  deriving DecidableEq, Repr

/-- Why a message is not a request. -/
inductive BadMessage where
  /-- There is no such method. -/
  | unknownMethod
  /-- The parameters are missing or of the wrong type. -/
  | badParams
  deriving DecidableEq, Repr

/-! ## Values -/

namespace Members

/-- The members of all objects among some values. -/
def ofValues (values : List Json) : Members :=
  values.flatMap fun value =>
    match value with
    | .object members => members
    | _ => []

/-- The members of an object that is itself a member. -/
def inside (members : Members) (name : String) : Members :=
  ofValues (members.given name)

/-- The text of a member. -/
def text (members : Members) (name : String) : String :=
  (members.given name).foldl
    (fun kept value =>
      match value with
      | .string given => given
      | _ => kept)
    ""

/-- The number of a member. -/
def number (members : Members) (name : String) : Nat :=
  (members.given name).foldl
    (fun kept value =>
      match value with
      | .number mantissa _ => mantissa.toNat
      | _ => kept)
    0

/-- The items of a member that is a list.  The null value empties the list. -/
def items (members : Members) (name : String) : List Json :=
  (members.given name).foldl
    (fun kept value =>
      match value with
      | .array given => given
      | .null => []
      | _ => kept)
    []

/-- The document that a message is about. -/
def uri (members : Members) : String :=
  (members.inside "textDocument").text "uri"

/-- The place that a message is about. -/
def cursor (members : Members) : Cursor where
  line := (members.inside "position").number "line"
  character := (members.inside "position").number "character"

end Members

/-- The change that a value describes.  A change without a part of the text
replaces the whole text. -/
def Change.ofJson (json : Json) : Change :=
  let members := Members.ofValues [json]
  match (members.given "range").getLast? with
  | some (.object _) => .part
  | _ => .whole (members.text "text")

/-! ## Methods -/

/-- The shape of a place in a document. -/
def cursorShape : Shape :=
  .record [.every "line" .unsigned, .every "character" .unsigned]

/-- The shape of a part of a document. -/
def rangeShape : Shape :=
  .record [.every "start" cursorShape, .every "end" cursorShape]

/-- The shape of a change to a document. -/
def changeShape : Shape :=
  .record
    [.every "range" rangeShape, .every "rangeLength" .unsigned, .every "text" .text]

/-- The shape of the name of a document. -/
def documentShape : Shape :=
  .record [.every "uri" .text]

/-- The shape of the name of a document with the number of its version. -/
def versionedShape : Shape :=
  .record [.every "uri" .text, .every "version" .signed]

/-- The shape of a document with its text. -/
def openedShape : Shape :=
  .record
    [ .every "uri" .text, .every "languageId" .text, .every "version" .signed,
      .every "text" .text ]

/-- The shape of the reason for a question about completions. -/
def contextShape : Shape :=
  .record [.every "triggerKind" .signed, .every "triggerCharacter" .text]

/-- A method that takes parameters. -/
structure Method where
  /-- The name. -/
  name : String
  /-- The shape of the parameters. -/
  shape : Shape
  /-- The request that the members of the parameters make. -/
  request : Members -> Request

/-- All methods that take parameters. -/
def methods : List Method :=
  [ { name := "initialize", shape := beginning, request := fun _ => .begin },
    { name := "initialized", shape := .record [], request := fun _ => .begun },
    { name := "$/setTrace",
      shape := .record [.every "value" .text],
      request := fun _ => .setTrace },
    { name := "textDocument/didOpen",
      shape := .record [.every "textDocument" openedShape],
      request := fun members =>
        .didOpen members.uri ((members.inside "textDocument").text "text") },
    { name := "textDocument/didChange",
      shape := .record
        [ .every "textDocument" versionedShape,
          .every "contentChanges" (.list changeShape) ],
      request := fun members =>
        .didChange members.uri ((members.items "contentChanges").map Change.ofJson) },
    { name := "textDocument/didClose",
      shape := .record [.every "textDocument" documentShape],
      request := fun members => .didClose members.uri },
    { name := "textDocument/completion",
      shape := .record
        [ .every "textDocument" documentShape, .every "position" cursorShape,
          .every "workDoneToken" .token, .every "partialResultToken" .token,
          .every "context" contextShape ],
      request := fun _ => .completion },
    { name := "textDocument/hover",
      shape := .record
        [ .every "textDocument" documentShape, .every "position" cursorShape,
          .every "workDoneToken" .token ],
      request := fun members => .hover members.uri members.cursor } ]

/-- The request that a message makes.  The end of a session takes no
parameters. -/
def Request.ofMessage (method : String) (params : Option Json) :
    Except BadMessage Request :=
  if method = "shutdown" then
    .ok .shutdown
  else
    match methods.find? fun known => known.name == method, params with
    | none, _ => .error .unknownMethod
    | some _, none => .error .badParams
    | some known, some json =>
      if known.shape.admits json then
        .ok (known.request (Members.ofValues [json]))
      else
        .error .badParams

end Editor
end GlyphStack
