import GlyphStack.Editor.Session
import Mathlib.Data.List.Induction

/-!
# The documents of a session

A session keeps the texts of many documents at once.  What it tells about one of
them can be read off the history of its requests: the text is the one that the
latest request gave to the document, unless the document was closed since.  A
request gives a text by opening a document, or by a list of changes of which the
last one replaces the whole text; all other requests, and all requests about other
documents, leave the document alone.

A message is refused or makes one request, and a refused message does nothing.  Which
messages are refused and which requests the others make is up to the protocol; nothing
here depends on it.
-/

namespace GlyphStack
namespace Editor

/-! ## Requests and one document -/

namespace Request

/-- A request gives a text to a document. -/
inductive Gives (uri text : String) : Request -> Prop
  | opened : Gives uri text (.didOpen uri text)
  | changed (earlier : List Change) :
      Gives uri text (.didChange uri (earlier ++ [.whole text]))

/-- Whether a request leaves a document alone: it neither gives a text to it nor
closes it. -/
def Spares (uri : String) (request : Request) : Prop :=
  request ≠ .didClose uri ∧ ∀ text, ¬ request.Gives uri text

/-- The document that a request is about. -/
def uri? : Request -> Option String
  | .didOpen uri _ | .didChange uri _ | .didClose uri | .hover uri _ => some uri
  | _ => none

/-- Requests about other documents leave a document alone. -/
theorem spares_of_uri?_ne
    {request : Request}
    {uri : String}
    (other : request.uri? ≠ some uri) :
    request.Spares uri := by
  constructor
  · rintro rfl
    exact other rfl
  · intro text gives
    cases gives with
    | opened => exact other rfl
    | changed earlier => exact other rfl

/-- A request gives a text to a document, closes it or leaves it alone. -/
theorem gives_or_closes_or_spares (request : Request) (uri : String) :
    (∃ text, request.Gives uri text) ∨ request = .didClose uri ∨ request.Spares uri := by
  by_cases gives : ∃ text, request.Gives uri text
  · exact .inl gives
  by_cases closes : request = .didClose uri
  · exact .inr (.inl closes)
  · exact .inr (.inr ⟨closes, fun text given => gives ⟨text, given⟩⟩)

end Request

/-- A document has the text that a request of the history gave to it, if it was
left alone since. -/
def HasText (uri text : String) (history : List Request) : Prop :=
  ∃ before request later, history = before ++ request :: later ∧
    request.Gives uri text ∧ ∀ other ∈ later, other.Spares uri

/-- A document has no text if it was left alone from the beginning, or since it was
closed. -/
def Textless (uri : String) (history : List Request) : Prop :=
  ∃ before later, history = before ++ later ∧
    (before = [] ∨ ∃ earlier, before = earlier ++ [.didClose uri]) ∧
    ∀ other ∈ later, other.Spares uri

/-- Every history tells whether a document has a text. -/
theorem textless_or_hasText (uri : String) (history : List Request) :
    Textless uri history ∨ ∃ text, HasText uri text history := by
  induction history using List.reverseRecOn with
  | nil => exact .inl ⟨[], [], rfl, .inl rfl, by simp⟩
  | append_singleton history request inductionHypothesis =>
    rcases request.gives_or_closes_or_spares uri with ⟨text, gives⟩ | closes | spares
    · exact .inr ⟨text, history, request, [], rfl, gives, by simp⟩
    · subst closes
      exact .inl ⟨history ++ [.didClose uri], [], by simp, .inr ⟨history, rfl⟩, by simp⟩
    · have alone : ∀ later : List Request, (∀ other ∈ later, other.Spares uri) ->
          ∀ other ∈ later ++ [request], other.Spares uri := by
        intro later all other member
        rcases List.mem_append.mp member with older | same
        · exact all other older
        · obtain rfl := List.mem_singleton.mp same
          exact spares
      rcases inductionHypothesis with ⟨before, later, rfl, start, all⟩ |
          ⟨text, before, giver, later, rfl, gives, all⟩
      · exact .inl ⟨before, later ++ [request], by simp, start, alone later all⟩
      · exact .inr ⟨text, before, giver, later ++ [request], by simp, gives, alone later all⟩

/-! ## Performing requests -/

namespace Session

variable {uri text : String} {request : Request}

theorem width_perform (session : Session) (request : Request) :
    (session.perform request).1.width = session.width := by
  cases request with
  | didChange other changes =>
    rw [perform]
    split <;> rfl
  | hover other cursor =>
    rw [perform]
    split <;> rfl
  | _ => rfl

theorem perform_of_gives
    (session : Session)
    (gives : request.Gives uri text) :
    session.perform request = session.update uri text := by
  cases gives with
  | opened => rfl
  | changed earlier => simp [perform]

/-- A request that leaves a document alone does not change its text, and publishes
nothing about it. -/
theorem perform_of_spares
    (session : Session)
    (spares : request.Spares uri) :
    (session.perform request).1.documents[uri]? = session.documents[uri]? ∧
      ∀ publication ∈ (session.perform request).2.published, publication.uri ≠ uri := by
  obtain ⟨unclosed, ungiven⟩ := spares
  have updated : ∀ other text, other ≠ uri ->
      (session.update other text).1.documents[uri]? = session.documents[uri]? ∧
        ∀ publication ∈ (session.update other text).2.published, publication.uri ≠ uri := by
    intro other text different
    simp [update, Std.HashMap.getElem?_insert, different]
  cases request with
  | didOpen other text =>
    apply updated
    rintro rfl
    exact ungiven text .opened
  | didChange other changes =>
    induction changes using List.reverseRecOn with
    | nil => simp [perform]
    | append_singleton earlier last =>
      cases last with
      | part => simp [perform]
      | whole text =>
        rw [perform_of_gives session (.changed earlier)]
        apply updated
        rintro rfl
        exact ungiven text (.changed earlier)
  | didClose other =>
    have different : other ≠ uri := fun same => unclosed (same ▸ rfl)
    simp [perform, Std.HashMap.getElem?_erase, different]
  | hover other cursor =>
    rw [perform]
    split <;> simp
  | _ => simp [perform]

/-- Perform requests one after the other. -/
def performAll (session : Session) (requests : List Request) : Session :=
  requests.foldl (fun session request => (session.perform request).1) session

theorem performAll_singleton (session : Session) (request : Request) :
    session.performAll [request] = (session.perform request).1 := rfl

theorem performAll_append (session : Session) (before later : List Request) :
    session.performAll (before ++ later) = (session.performAll before).performAll later :=
  List.foldl_append

theorem width_performAll (session : Session) (requests : List Request) :
    (session.performAll requests).width = session.width := by
  induction requests generalizing session with
  | nil => rfl
  | cons request requests inductionHypothesis =>
    exact (inductionHypothesis _).trans (width_perform session request)

theorem documents_performAll_of_spares
    (session : Session)
    {requests : List Request}
    (alone : ∀ request ∈ requests, request.Spares uri) :
    (session.performAll requests).documents[uri]? = session.documents[uri]? := by
  induction requests generalizing session with
  | nil => rfl
  | cons request requests inductionHypothesis =>
    have later := inductionHypothesis (session.perform request).1
      fun other member => alone other (List.mem_cons_of_mem _ member)
    exact later.trans (session.perform_of_spares (alone request List.mem_cons_self)).1

/-- A session knows the text that its history gives to a document. -/
theorem documents_of_hasText
    (width : Width)
    {history : List Request}
    (hasText : HasText uri text history) :
    ((new width).performAll history).documents[uri]? = some text := by
  obtain ⟨before, request, later, rfl, gives, alone⟩ := hasText
  rw [← List.singleton_append, performAll_append, performAll_append,
    documents_performAll_of_spares _ alone, performAll_singleton, perform_of_gives _ gives]
  exact Std.HashMap.getElem?_insert_self

theorem documents_of_textless
    (width : Width)
    {history : List Request}
    (textless : Textless uri history) :
    ((new width).performAll history).documents[uri]? = none := by
  obtain ⟨before, later, rfl, start, alone⟩ := textless
  rw [performAll_append, documents_performAll_of_spares _ alone]
  rcases start with rfl | ⟨earlier, rfl⟩
  · exact Std.HashMap.getElem?_empty
  · rw [performAll_append, performAll_singleton]
    exact Std.HashMap.getElem?_erase_self

/-- A question about a place is answered from the text of the document. -/
theorem result_hover (session : Session) (uri : String) (cursor : Cursor) :
    (session.perform (.hover uri cursor)).2.result =
      match session.documents[uri]? with
      | none => .nothing
      | some text =>
        ((hover? session.width (Glyph.ofString text) cursor).map Result.hover).getD .nothing := by
  rw [perform]
  cases session.documents[uri]? with
  | none => rfl
  | some text =>
    dsimp only
    cases hover? session.width (Glyph.ofString text) cursor <;> rfl

/-- What is told about a place depends on the document alone. -/
theorem perform_hover_congr
    {session other : Session}
    (width_eq : other.width = session.width)
    (document_eq : other.documents[uri]? = session.documents[uri]?)
    (cursor : Cursor) :
    (other.perform (.hover uri cursor)).2 = (session.perform (.hover uri cursor)).2 := by
  rw [perform, perform, document_eq, width_eq]
  cases session.documents[uri]? <;> rfl

/-- Requests that leave all documents alone publish nothing. -/
theorem published_of_forall_spares
    (session : Session)
    (alone : ∀ uri, request.Spares uri) :
    (session.perform request).2.published = [] := by
  have unpublished := fun uri => (session.perform_of_spares (alone uri)).2
  cases published : (session.perform request).2.published with
  | nil => rfl
  | cons publication rest =>
    refine absurd rfl (unpublished publication.uri publication ?_)
    rw [published]
    exact List.mem_cons_self

end Session

/-! ## Messages -/

/-- A message of an editor. -/
structure Message where
  /-- The name of the method. -/
  method : String
  /-- The parameters. -/
  params : Option Json

section Messages

variable [Protocol]

namespace Session

/-- The request that a message makes of a session, unless the message is refused. -/
def accepted? (session : Session) (message : Message) : Option Request :=
  (Protocol.understand session.started message.method message.params).toOption

/-- Handle messages one after the other. -/
def handleAll (session : Session) (messages : List Message) : Session :=
  messages.foldl (fun session message => (session.handle message.method message.params).1) session

/-- The requests that messages make, in order. -/
def history (session : Session) : List Message -> List Request
  | [] => []
  | message :: messages =>
    (session.accepted? message).toList ++
      (session.handle message.method message.params).1.history messages

theorem handle_of_accepted?_eq_some
    {session : Session}
    {message : Message}
    {request : Request}
    (accepted : session.accepted? message = some request) :
    session.handle message.method message.params =
      ((session.perform request).1, .ok (session.perform request).2) := by
  rw [accepted?] at accepted
  rw [handle]
  cases understood : Protocol.understand session.started message.method message.params with
  | error refusal => simp [understood, Except.toOption] at accepted
  | ok other =>
    obtain rfl : other = request := by simpa [understood, Except.toOption] using accepted
    rfl

/-- A refused message does nothing. -/
theorem handle_of_accepted?_eq_none
    {session : Session}
    {message : Message}
    (refused : session.accepted? message = none) :
    ∃ refusal, session.handle message.method message.params = (session, .error refusal) := by
  rw [accepted?] at refused
  rw [handle]
  cases understood : Protocol.understand session.started message.method message.params with
  | error refusal => exact ⟨refusal, rfl⟩
  | ok request => simp [understood, Except.toOption] at refused

/-- Handling messages is performing the requests that they make. -/
theorem handleAll_eq_performAll (session : Session) (messages : List Message) :
    session.handleAll messages = session.performAll (session.history messages) := by
  induction messages generalizing session with
  | nil => rfl
  | cons message messages inductionHypothesis =>
    rw [handleAll, List.foldl_cons, ← handleAll, history, inductionHypothesis, performAll_append]
    cases accepted : session.accepted? message with
    | none =>
      obtain ⟨refusal, refused⟩ := handle_of_accepted?_eq_none accepted
      rw [refused]
      rfl
    | some request =>
      rw [handle_of_accepted?_eq_some accepted]
      rfl

end Session

/-- Whatever messages a session has received and however they are understood, what it
tells and publishes about a document goes by the requests that they made.  A question
about a place in a document is answered from the text that the history gives to it, and
with nothing if it has none; every history says which.  A request that gives a text to a
document publishes the diagnostics of that text, once; one that closes a document
withdraws them, once; no other request publishes anything.  Requests that leave a
document alone change neither what is told about it nor what is published for it. -/
theorem session_follows_history
    (width : Width)
    (messages : List Message)
    (message : Message) :
    let session := (Session.new width).handleAll messages
    let history := (Session.new width).history messages
    (∀ uri, Textless uri history ∨ ∃ text, HasText uri text history) ∧
    (session.accepted? message = none ->
      ∃ refusal, session.handle message.method message.params = (session, .error refusal)) ∧
    ∀ request, session.accepted? message = some request ->
      ∃ after response,
        session.handle message.method message.params = (after, .ok response) ∧
        (∀ uri cursor, request = .hover uri cursor ->
          (Textless uri history -> response.result = .nothing) ∧
          ∀ text, HasText uri text history ->
            response.result =
              ((hover? width (Glyph.ofString text) cursor).map Result.hover).getD .nothing) ∧
        (∀ uri text, request.Gives uri text ->
          response.published =
            [{ uri := uri, diagnostics := diagnose width (Glyph.ofString text) }]) ∧
        (∀ uri, request = .didClose uri ->
          response.published = [{ uri := uri, diagnostics := [] }]) ∧
        ((∀ uri, request.Spares uri) -> response.published = []) ∧
        ∀ uri, request.Spares uri ->
          (∀ publication ∈ response.published, publication.uri ≠ uri) ∧
          ∀ cursor, (after.perform (.hover uri cursor)).2 =
            (session.perform (.hover uri cursor)).2 := by
  intro session history
  have session_eq : session = (Session.new width).performAll history :=
    Session.handleAll_eq_performAll _ _
  have width_eq : session.width = width := by
    rw [session_eq, Session.width_performAll]
    rfl
  refine ⟨fun uri => textless_or_hasText uri history,
    Session.handle_of_accepted?_eq_none, ?_⟩
  intro request accepted
  refine ⟨_, _, Session.handle_of_accepted?_eq_some accepted, ?_, ?_, ?_,
    session.published_of_forall_spares, ?_⟩
  · rintro uri cursor rfl
    rw [Session.result_hover, width_eq]
    constructor
    · intro textless
      rw [session_eq, Session.documents_of_textless width textless]
    · intro text hasText
      rw [session_eq, Session.documents_of_hasText width hasText]
  · intro uri text gives
    rw [Session.perform_of_gives session gives, ← width_eq]
    rfl
  · rintro uri rfl
    rfl
  · intro uri spares
    obtain ⟨document_eq, unpublished⟩ := session.perform_of_spares spares
    exact ⟨unpublished,
      Session.perform_hover_congr (session.width_perform request) document_eq⟩

end Messages

/-- Parameters that name a document. -/
def namingDocument (uri : String) (members : List (String × Json)) : Json :=
  .object [("textDocument", .object (("uri", .string uri) :: members)),
    ("position", .object [("line", .number 0 0), ("character", .number 1 0)])]

/-- Two documents are opened, and the second one is closed again. -/
def twoDocuments : List Message :=
  [{ method := "initialize", params := some (.object []) },
    { method := "textDocument/didOpen",
      params := some (namingDocument "a" [("text", .string "1.")]) },
    { method := "textDocument/didOpen",
      params := some (namingDocument "b" [("text", .string "2")]) },
    { method := "textDocument/didClose", params := some (namingDocument "b" []) }]

/-- What is told about the first document goes by the text with which it was
opened. -/
theorem session_follows_history_twoDocuments :
    HasText "a" "1." ((Session.new .standard).history twoDocuments) ∧
    Textless "b" ((Session.new .standard).history twoDocuments) ∧
    ∃ after response,
      ((Session.new .standard).handleAll twoDocuments).handle "textDocument/hover"
        (some (namingDocument "a" [])) = (after, .ok response) ∧
      response.result =
        .hover (describe (.plain .pop { offset := 1, line := 1, column := 2 })) := by
  have history_eq : (Session.new .standard).history twoDocuments =
      [.begin, .didOpen "a" "1.", .didOpen "b" "2", .didClose "b"] := by
    rfl
  have hasText : HasText "a" "1." ((Session.new .standard).history twoDocuments) := by
    rw [history_eq]
    refine ⟨[.begin], _, _, rfl, .opened, ?_⟩
    intro other member
    apply Request.spares_of_uri?_ne
    revert other
    decide
  have textless : Textless "b" ((Session.new .standard).history twoDocuments) := by
    rw [history_eq]
    exact ⟨_, [], rfl, .inr ⟨[.begin, .didOpen "a" "1.", .didOpen "b" "2"], rfl⟩, by simp⟩
  obtain ⟨-, -, accepts⟩ := session_follows_history .standard twoDocuments
    { method := "textDocument/hover", params := some (namingDocument "a" []) }
  obtain ⟨after, response, handled, told, -⟩ :=
    accepts (.hover "a" { line := 0, character := 1 }) rfl
  exact ⟨hasText, textless, after, response, handled, ((told "a" _ rfl).2 "1." hasText).trans rfl⟩

end Editor
end GlyphStack
