import PreparedSql.Session.Connection

/-! Connections that answer without a server: from rows laid down in advance,
or from a script of replies. Both keep what was sent. -/
namespace PreparedSql

/-- A statement that asks for rows. -/
def asksForRows (statement : String) : Bool :=
  Text.beginsWith "SELECT" statement || Text.beginsWith "EXECUTE" statement

/-- A connection with the same answer for every statement of a kind. -/
structure Canned where
  vendorName : String := "postgres"
  handle : Handle
  labels : List String := []
  rows : List (List Value) := []
  affected : List Affected := [{}]
  /-- Statements that begin with this text fail. -/
  failOn : Option String := none
  /-- The row before which a failure is answered. -/
  failAtRow : Option Nat := none
  /-- Every statement is answered with rows and results. -/
  mixed : Bool := false
  sent : List String := []

namespace Canned

/-- The rows, and the failure among them. -/
def rowAnswers (c : Canned) : List (Except Failure Answer) :=
  let rows := c.rows.map fun values => .ok (.row ⟨c.labels, values⟩)
  match c.failAtRow with
  | some i =>
    if i < rows.length then rows.take i ++ .error (.reported "Mock row failure") :: rows.drop i
    else rows
  | none => rows

def answers (c : Canned) (statement : String) : List (Except Failure Answer) :=
  if c.failOn.any (Text.beginsWith · statement) then
    [.error (.reported ("Mock failure on `" ++ statement ++ "`"))]
  else
    let asks := asksForRows statement
    (if asks || c.mixed then c.rowAnswers else [])
      ++ if !asks || c.mixed then c.affected.map fun a => .ok (.affected a) else []

instance : Connection Canned where
  vendorName c := c.vendorName
  handle c := c.handle
  run statement c := (c.answers statement, { c with sent := c.sent ++ [statement] })

end Canned

/-- One reply of a script. -/
inductive Reply where
  | failure (message : String)
  | rows (labels : List String) (rows : List (List Value)) (affected : List Affected)

/-- A connection that answers statements on rows with the next reply of a
script, and any other with one empty result. -/
structure Scripted where
  vendorName : String
  handle : Handle
  replies : List Reply := []
  sent : List String := []

namespace Scripted

def takesReply (statement : String) : Bool :=
  asksForRows statement || Text.beginsWith "DELETE" statement

def Reply.answers : Reply → List (Except Failure Answer)
  | .failure message => [.error (.reported message)]
  | .rows labels rows affected =>
    rows.map (fun values => .ok (.row ⟨labels, values⟩))
      ++ affected.map fun a => .ok (.affected a)

instance : Connection Scripted where
  vendorName c := c.vendorName
  handle c := c.handle
  run statement c :=
    let c := { c with sent := c.sent ++ [statement] }
    if takesReply statement then
      match c.replies with
      | [] => ([], c)
      | reply :: rest => (Reply.answers reply, { c with replies := rest })
    else ([.ok (.affected {})], c)

end Scripted

end PreparedSql
