import GlyphStack.Editor.Hover
import GlyphStack.Editor.Request
import Std.Data.HashMap

/-!
# Editor sessions

A session keeps the texts of the open documents.  Whenever the text of a
document changes, its diagnostics are published; when a document is closed, they
are withdrawn.  What a message asks of a session is up to a protocol.
-/

namespace GlyphStack
namespace Editor

/-- The memory of an editor service. -/
structure Session where
  /-- The width for the literals of all documents. -/
  width : Width
  /-- Whether the session has begun and not ended. -/
  started : Bool
  /-- The texts of the open documents. -/
  documents : Std.HashMap String String

/-- Diagnostics published for a document. -/
structure Publication where
  /-- The document. -/
  uri : String
  /-- All of its diagnostics. -/
  diagnostics : List Diagnostic
  deriving DecidableEq, Repr

/-- The result of a request. -/
inductive Result where
  /-- There is nothing to tell. -/
  | nothing
  /-- What the service can do. -/
  | capabilities
  /-- The operators to offer. -/
  | completions (items : List Completion)
  /-- The description of a place. -/
  | hover (text : String)
  deriving DecidableEq, Repr

/-- What a request brings about. -/
structure Response where
  /-- The result. -/
  result : Result := .nothing
  /-- The diagnostics published. -/
  published : List Publication := []
  /-- What is reported. -/
  log : List Log.Entry := []

/-- Why a message gets no result. -/
inductive Refusal where
  /-- The session has not begun. -/
  | notInitialized
  /-- There is no such method. -/
  | unknownMethod
  /-- The parameters are missing or of the wrong type. -/
  | badParams
  deriving DecidableEq, Repr

/-- The wording of a refusal.  An unknown method is passed over in silence. -/
def Refusal.message? : Refusal -> Option String
  | .notInitialized => some "server not initialized"
  | .unknownMethod => none
  | .badParams => some "bad params"

/-- How the messages of an editor are understood. -/
class Protocol where
  /-- The request that a message makes, or why it is refused, depending on whether
  the session has begun. -/
  understand :
    (started : Bool) -> (method : String) -> (params : Option Json) -> Except Refusal Request

/-- Before a session has begun, only the message that begins it is looked at. -/
instance : Protocol where
  understand started method params :=
    if !started && method != "initialize" then
      .error .notInitialized
    else
      match Request.ofMessage method params with
      | .error .unknownMethod => .error .unknownMethod
      | .error .badParams => .error .badParams
      | .ok request => .ok request

/-- An entry of the editor service. -/
def entry (level : Log.Level) (text : String) : Log.Entry :=
  { reporter := .editor, level := level, text := text }

/-- The name of the service. -/
def serviceName : String := Diagnostic.source

/-- The version of the service. -/
def serviceVersion : String := "0.1.0"

namespace Session

/-- A session without documents that has not begun. -/
def new (width : Width) : Session where
  width := width
  started := false
  documents := ∅

/-- Keep the text of a document and publish its diagnostics. -/
def update (session : Session) (uri text : String) : Session × Response :=
  let source := Glyph.ofString text
  let diagnostics := diagnose session.width source
  let announcement :=
    entry .debug (uri ++ ": " ++ toString diagnostics.length ++ " diagnostics")
  ({ session with documents := session.documents.insert uri text },
    { published := [{ uri := uri, diagnostics := diagnostics }],
      log := readingReport session.width source ++ [announcement] })

/-- Carry out a request.  Of several changes only the last one counts, and only
if it replaces the whole text. -/
def perform (session : Session) : Request -> Session × Response
  | .begin =>
    ({ session with started := true },
      { result := .capabilities, log := [entry .info "playlang LSP initializing"] })
  | .begun | .setTrace => (session, {})
  | .shutdown => ({ session with started := false }, {})
  | .didOpen uri text => session.update uri text
  | .didChange uri changes =>
    match changes.getLast? with
    | some (.whole text) => session.update uri text
    | some .part | none => (session, {})
  | .didClose uri =>
    ({ session with documents := session.documents.erase uri },
      { published := [{ uri := uri, diagnostics := [] }] })
  | .completion => (session, { result := .completions completions })
  | .hover uri cursor =>
    match session.documents[uri]? with
    | none => (session, {})
    | some text =>
      let source := Glyph.ofString text
      let result :=
        match hover? session.width source cursor with
        | some description => Result.hover description
        | none => .nothing
      (session, { result := result, log := readingReport session.width source })

/-- Handle a message: carry out the request that it makes, unless it is
refused. -/
def handle [Protocol] (session : Session) (method : String) (params : Option Json) :
    Session × Except Refusal Response :=
  match Protocol.understand session.started method params with
  | .error refusal => (session, .error refusal)
  | .ok request =>
    let (after, response) := session.perform request
    (after, .ok response)

end Session

end Editor
end GlyphStack
