import RowQuery.Evaluation
import RowQuery.Form.Text
import RowQuery.Form.Write

/-! # Sessions

A session holds a document and the switches under which it is queried. Queries never change either,
so one session answers any number of them.
-/

namespace RowQuery

/-- Why a session cannot be opened or cannot answer. -/
inductive SessionError where
  /-- The text of the document or of the query is at fault. -/
  | text (fault : Json.Fault)
  /-- The document file cannot be opened. -/
  | unopened
  /-- The query cannot be evaluated. -/
  | query (failure : QueryError)

/-- A document ready to be queried. -/
structure Session where
  /-- The document. -/
  document : Node
  /-- The switches of every query. -/
  config : Config := {}

namespace Session

/-- Keep a fault in a text as the failure of a session. -/
def ofText {α : Type} (result : Except Json.Fault α) : Except SessionError α :=
  result.mapError .text

/-- Open the document that a text writes. -/
def parse (config : Config) (text : String) : Except SessionError Session :=
  ofText ((Json.read text).map ({ document := ·, config }))

/-- Open the document that bytes write. -/
def readBytes (config : Config) (bytes : Json.Bytes) : Except SessionError Session :=
  ofText ((Json.readBytes bytes).map ({ document := ·, config }))

/-- Open the document in a file, given the file's content unless it cannot be opened. -/
def ofFile (config : Config) (content : Option Json.Bytes) : Except SessionError Session :=
  match content with
  | some bytes => readBytes config bytes
  | none => .error .unopened

/-- Answer a query. -/
def query (session : Session) (query : Query) : Except SessionError Table :=
  (query.run session.config session.document).mapError .query

/-- Answer a query that is written as JSON text. -/
def queryText (session : Session) (text : String) : Except SessionError Table := do
  session.query (← ofText (Query.read text))

end Session

end RowQuery
