import GlyphStack.Proofs.Documents

/-!
# Publications on their way to the editor

A session does not wait until the editor has received what it publishes.  A
publication may arrive after later requests, and it may be overtaken by another one.
The editor shows for each document the diagnostics that arrived last, since nothing
in a publication tells its age.

So in the end the editor shows what the publication says that arrived last, and this
need not be the one that was sent last.  Publications that arrive in the order in
which they were sent are enough for the editor to end up with the diagnostics of the
text that the document has.  If they may arrive in any order, this is certain only if
all publications for the document say the same.
-/

namespace GlyphStack
namespace Editor

/-! ## What was sent and what is shown -/

/-- The diagnostics that the session has to tell of a document: those of its text, or
none if it has no text. -/
def Session.due (session : Session) (uri : String) : List Diagnostic :=
  match session.documents[uri]? with
  | none => []
  | some text => diagnose session.width (Glyph.ofString text)

/-- All that a session publishes while it performs requests, in order. -/
def Session.sent (session : Session) : List Request -> List Publication
  | [] => []
  | request :: requests =>
    (session.perform request).2.published ++ (session.perform request).1.sent requests

theorem Session.sent_append
    (session : Session)
    (before later : List Request) :
    session.sent (before ++ later) =
      session.sent before ++ (session.performAll before).sent later := by
  induction before generalizing session with
  | nil => rfl
  | cons request before inductionHypothesis =>
    rw [List.cons_append, sent, inductionHypothesis, sent, List.append_assoc]
    rfl

theorem Session.sent_singleton
    (session : Session)
    (request : Request) :
    session.sent [request] = (session.perform request).2.published :=
  List.append_nil _

/-- The publications for a document. -/
def forDocument (uri : String) (publications : List Publication) : List Publication :=
  publications.filter fun publication => publication.uri = uri

/-- What is shown of a document after publications have arrived: the diagnostics of
the last one for it. -/
def lastShown (uri : String) (arrived : List Publication) : List Diagnostic :=
  ((forDocument uri arrived).getLast?.map Publication.diagnostics).getD []

section Shown

variable {uri : String} {arrived : List Publication}

theorem lastShown_concat (publication : Publication) :
    lastShown uri (arrived ++ [publication]) =
      if publication.uri = uri then publication.diagnostics else lastShown uri arrived := by
  by_cases same : publication.uri = uri <;> simp [lastShown, forDocument, same]

theorem lastShown_append_of_forall_ne
    (arrived : List Publication)
    {more : List Publication}
    (others : ∀ publication ∈ more, publication.uri ≠ uri) :
    lastShown uri (arrived ++ more) = lastShown uri arrived := by
  have unfit : forDocument uri more = [] := by
    simpa [forDocument, List.filter_eq_nil_iff] using others
  rw [lastShown, lastShown, forDocument, List.filter_append, ← forDocument, ← forDocument, unfit,
    List.append_nil]

/-- What is shown was said by a publication for the document, if there is one. -/
theorem exists_mem_lastShown
    {publication : Publication}
    (present : publication ∈ arrived)
    (fits : publication.uri = uri) :
    ∃ last ∈ arrived, last.uri = uri ∧ lastShown uri arrived = last.diagnostics := by
  have inside : publication ∈ forDocument uri arrived := by
    simp [forDocument, present, fits]
  have last_eq := List.getLast?_eq_some_getLast (List.ne_nil_of_mem inside)
  have last_mem := List.getLast_mem (List.ne_nil_of_mem inside)
  obtain ⟨member, matching⟩ := List.mem_filter.mp last_mem
  exact ⟨_, member, of_decide_eq_true matching, by rw [lastShown, last_eq]; rfl⟩

end Shown

/-- The last publication that was sent for a document says what there is to tell. -/
theorem Session.lastShown_sent
    (width : Width)
    (history : List Request)
    (uri : String) :
    lastShown uri ((new width).sent history) = ((new width).performAll history).due uri := by
  induction history using List.reverseRecOn with
  | nil => simp [sent, performAll, due, new, lastShown, forDocument]
  | append_singleton history request inductionHypothesis =>
    rw [sent_append, sent_singleton, performAll_append, performAll_singleton]
    generalize (new width).performAll history = session at inductionHypothesis ⊢
    rcases request.gives_or_closes_or_spares uri with ⟨text, gives⟩ | rfl | spares
    · rw [perform_of_gives session gives, update, lastShown_concat, if_pos rfl]
      simp [due]
    · rw [perform, lastShown_concat, if_pos rfl]
      simp [due]
    · obtain ⟨document_eq, others⟩ := session.perform_of_spares spares
      rw [lastShown_append_of_forall_ne _ others, inductionHypothesis, due, due, document_eq,
        width_perform]

/-! ## Sessions and editors -/

/-- A session and its editor, with the publications that are on their way. -/
structure Exchange where
  /-- The session. -/
  session : Session
  /-- The publications that have not arrived yet. -/
  inFlight : List Publication
  /-- The diagnostics that the editor shows of each document. -/
  shown : String -> List Diagnostic

namespace Exchange

/-- The beginning of a session, when nothing is shown. -/
def new (width : Width) : Exchange where
  session := .new width
  inFlight := []
  shown := fun _ => []

/-- A request is performed, and what it publishes is on its way. -/
def request (exchange : Exchange) (request : Request) : Exchange :=
  { exchange with
    session := (exchange.session.perform request).1
    inFlight := exchange.inFlight ++ (exchange.session.perform request).2.published }

/-- A publication arrives, and the others are still on their way. -/
def deliver
    (exchange : Exchange)
    (publication : Publication)
    (others : List Publication) : Exchange :=
  { exchange with
    inFlight := others
    shown := fun uri =>
      if publication.uri = uri then publication.diagnostics else exchange.shown uri }

end Exchange

/-- A course of events: the requests that were performed, the publications that have
arrived, both in order, and what this has led to.  Any publication that is on its way
may be the next to arrive. -/
inductive Course (width : Width) : List Request -> List Publication -> Exchange -> Prop
  | start : Course width [] [] (.new width)
  | request {history : List Request} {arrived : List Publication} {exchange : Exchange}
      (course : Course width history arrived exchange)
      (request : Request) :
      Course width (history ++ [request]) arrived (exchange.request request)
  | deliver {history : List Request} {arrived : List Publication} {exchange : Exchange}
      {before later : List Publication} {publication : Publication}
      (course : Course width history arrived exchange)
      (onItsWay : exchange.inFlight = before ++ publication :: later) :
      Course width history (arrived ++ [publication])
        (exchange.deliver publication (before ++ later))

namespace Course

variable {width : Width} {history : List Request} {arrived : List Publication}
  {exchange : Exchange}

theorem session_eq (course : Course width history arrived exchange) :
    exchange.session = (Session.new width).performAll history := by
  induction course with
  | start => rfl
  | request course request inductionHypothesis =>
    rw [Session.performAll_append, ← inductionHypothesis, Session.performAll_singleton]
    rfl
  | deliver course onItsWay inductionHypothesis => exact inductionHypothesis

theorem shown_eq
    (course : Course width history arrived exchange)
    (uri : String) :
    exchange.shown uri = lastShown uri arrived := by
  induction course with
  | start => rfl
  | request course request inductionHypothesis => exact inductionHypothesis
  | deliver course onItsWay inductionHypothesis =>
    rw [lastShown_concat, ← inductionHypothesis]
    rfl

/-- Nothing is lost and nothing arrives twice. -/
theorem perm (course : Course width history arrived exchange) :
    (arrived ++ exchange.inFlight).Perm ((Session.new width).sent history) := by
  induction course with
  | start => exact .refl _
  | request course request inductionHypothesis =>
    rw [Session.sent_append, ← course.session_eq, Session.sent_singleton]
    rw [Exchange.request, ← List.append_assoc]
    exact inductionHypothesis.append_right _
  | @deliver history arrived exchange before later publication course onItsWay
      inductionHypothesis =>
    rw [onItsWay] at inductionHypothesis
    refine List.Perm.trans ?_ inductionHypothesis
    rw [Exchange.deliver, List.append_assoc, List.singleton_append]
    exact List.perm_middle.symm.append_left arrived

/-- All publications may still be on their way when the last request has been
performed. -/
theorem requests (width : Width) (history : List Request) :
    ∃ exchange, Course width history [] exchange ∧
      exchange.inFlight = (Session.new width).sent history := by
  induction history using List.reverseRecOn with
  | nil => exact ⟨_, .start, rfl⟩
  | append_singleton history request inductionHypothesis =>
    obtain ⟨exchange, course, inFlight_eq⟩ := inductionHypothesis
    refine ⟨_, course.request request, ?_⟩
    rw [Session.sent_append, ← inFlight_eq, ← course.session_eq, Session.sent_singleton]
    rfl

/-- They may then arrive in any order. -/
theorem deliveries
    (course : Course width history arrived exchange)
    {order : List Publication}
    (perm : order.Perm exchange.inFlight) :
    ∃ final, Course width history (arrived ++ order) final ∧ final.inFlight = [] := by
  induction order generalizing arrived exchange with
  | nil => exact ⟨exchange, (List.append_nil arrived).symm ▸ course, perm.nil_eq.symm⟩
  | cons publication order inductionHypothesis =>
    obtain ⟨before, later, split⟩ := List.append_of_mem (perm.subset List.mem_cons_self)
    have delivered := course.deliver split
    have remaining : order.Perm (before ++ later) := by
      rw [split] at perm
      exact (perm.trans List.perm_middle).cons_inv
    obtain ⟨final, finalCourse, quiet⟩ := inductionHypothesis delivered remaining
    rw [List.append_assoc] at finalCourse
    exact ⟨final, finalCourse, quiet⟩

/-- Every order in which publications can be arranged is one in which they may
arrive. -/
theorem exists_of_perm
    {order : List Publication}
    (perm : order.Perm ((Session.new width).sent history)) :
    ∃ exchange, Course width history order exchange ∧ exchange.inFlight = [] := by
  obtain ⟨exchange, course, inFlight_eq⟩ := requests width history
  exact course.deliveries (inFlight_eq ▸ perm)

/-- When nothing is on its way any more, all that was sent has arrived. -/
theorem perm_of_quiet
    (course : Course width history arrived exchange)
    (quiet : exchange.inFlight = []) :
    arrived.Perm ((Session.new width).sent history) := by
  have all := course.perm
  rw [quiet, List.append_nil] at all
  exact all

end Course

/-- When all publications have arrived, the editor shows of a document what the one
says that arrived last.  If the publications for the document have arrived in the order
in which they were sent, these are the diagnostics of the text that it has, or none if
it has no text.  Whatever the order, this is so exactly if all publications for the
document say the same; else one of them can come too late. -/
theorem diagnostics_converge_iff
    (width : Width)
    (history : List Request)
    (uri : String) :
    (∀ arrived exchange, Course width history arrived exchange -> exchange.inFlight = [] ->
      exchange.shown uri = lastShown uri arrived ∧
      (forDocument uri arrived = forDocument uri ((Session.new width).sent history) ->
        exchange.shown uri = exchange.session.due uri)) ∧
    ((∀ arrived exchange, Course width history arrived exchange -> exchange.inFlight = [] ->
        exchange.shown uri = exchange.session.due uri) ↔
      ∀ publication ∈ (Session.new width).sent history, publication.uri = uri ->
        publication.diagnostics = ((Session.new width).performAll history).due uri) := by
  have inOrder := Session.lastShown_sent width history uri
  refine ⟨?_, ?_, ?_⟩
  · intro arrived exchange course quiet
    refine ⟨course.shown_eq uri, ?_⟩
    intro ordered
    rw [course.shown_eq uri, course.session_eq, ← inOrder, lastShown, ordered]
    rfl
  · intro converges publication sent fits
    -- Let this publication be the last one to arrive.
    obtain ⟨before, later, split⟩ := List.append_of_mem sent
    have perm : (before ++ later ++ [publication]).Perm ((Session.new width).sent history) := by
      rw [split]
      exact List.perm_append_singleton publication (before ++ later) |>.trans
        List.perm_middle.symm
    obtain ⟨exchange, course, quiet⟩ := Course.exists_of_perm perm
    have shown := converges _ exchange course quiet
    rw [course.shown_eq uri, lastShown_concat, if_pos fits, course.session_eq] at shown
    exact shown
  · intro agree arrived exchange course quiet
    have perm := course.perm_of_quiet quiet
    rw [course.shown_eq uri, course.session_eq]
    by_cases mentioned : ∃ publication ∈ arrived, publication.uri = uri
    · obtain ⟨publication, present, fits⟩ := mentioned
      obtain ⟨last, lastPresent, lastFits, shown⟩ := exists_mem_lastShown present fits
      rw [shown]
      exact agree last (perm.subset lastPresent) lastFits
    · -- Nothing was ever published for the document.
      have none : ∀ publications : List Publication, publications.Perm arrived ->
          lastShown uri publications = [] := by
        intro publications same
        have others : ∀ publication ∈ publications, publication.uri ≠ uri :=
          fun publication present fits => mentioned ⟨publication, same.subset present, fits⟩
        exact lastShown_append_of_forall_ne [] others
      rw [none arrived (.refl _), ← inOrder, none _ perm.symm]

/-- A document with a problem is opened and closed. -/
def openedAndClosed : List Request :=
  [.didOpen "a" "x", .didClose "a"]

/-- The withdrawal of the diagnostics may be overtaken by the diagnostics, which are
then shown of a document that is closed. -/
theorem diagnostics_converge_iff_openedAndClosed :
    ∃ exchange,
      Course .standard openedAndClosed
        [{ uri := "a", diagnostics := [] },
          { uri := "a", diagnostics := diagnose .standard (Glyph.ofString "x") }]
        exchange ∧
      exchange.inFlight = [] ∧ exchange.session.due "a" = [] ∧ exchange.shown "a" ≠ [] := by
  have perm : List.Perm
      [{ uri := "a", diagnostics := [] },
        { uri := "a", diagnostics := diagnose .standard (Glyph.ofString "x") }]
      ((Session.new .standard).sent openedAndClosed) := .swap _ _ _
  obtain ⟨exchange, course, quiet⟩ := Course.exists_of_perm perm
  obtain ⟨shown, -⟩ :=
    (diagnostics_converge_iff .standard openedAndClosed "a").1 _ exchange course quiet
  refine ⟨exchange, course, quiet, ?_, ?_⟩
  · rw [course.session_eq]
    simp [openedAndClosed, Session.performAll, Session.perform, Session.due]
  · rw [shown]
    decide

end Editor
end GlyphStack
