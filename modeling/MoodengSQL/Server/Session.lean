import MoodengSQL.Core.Session

/-!
# The session of a connection

What the server keeps for a connection besides the engine's session: the texts
of prepared statements, the bound parameters, and whether the last statement
failed.
-/

namespace MoodengSQL

/-- `ConnectionSession`. -/
structure ConnectionSession where
  session : Session
  prepared : Map String String
  portalParams : List (Option String)
  lastStatement : Option String
  inError : Bool

namespace ConnectionSession

/-- `ConnectionSession::new`. -/
def new : ConnectionSession where
  session := .new
  prepared := ∅
  portalParams := []
  lastStatement := none
  inError := false

/-- `ready_status`: in a failed statement, in a transaction, or idle. -/
def readyStatus (conn : ConnectionSession) : UInt8 :=
  if conn.inError then 'E'.toUInt8
  else if conn.session.transaction.active then 'T'.toUInt8
  else 'I'.toUInt8

end ConnectionSession

end MoodengSQL
