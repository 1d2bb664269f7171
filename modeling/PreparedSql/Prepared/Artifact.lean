import PreparedSql.Prepared.Vendor
import PreparedSql.Query.Basic

/-! Compiling a query for a database. Every parameter gets a type from the
column it is compared with; the statement is written with placeholders; and a
table of slots records what feeds each of them. -/
namespace PreparedSql

/-- What feeds a slot of a prepared statement. -/
inductive SlotSource where
  | element (token name : String) (index : Nat)
  /-- The number of rows between two bounds. -/
  | span (low high : Bound)
  deriving DecidableEq

structure Slot where
  source : SlotSource
  fieldType : FieldType
  deriving DecidableEq

/-- A part of a body: text as it stands, or the placeholder of a slot. -/
inductive Part where
  | verbatim (s : String)
  | placeholder (slot : Nat)
  deriving DecidableEq

/-- How a part is written for a database. -/
def Part.text (v : Vendor) : Part → String
  | verbatim s => s
  | placeholder slot => v.placeholder slot

/-- A query compiled for one database. -/
structure Artifact where
  vendor : Vendor
  name : String
  /-- The statement with placeholders. -/
  body : String
  /-- The statement that prepares it. -/
  statement : String
  /-- The literals that the body holds. -/
  fixed : List Value
  /-- Tokens of the parameters in the order of their first appearance. -/
  order : List String
  /-- Names of the parameters, in the same order. -/
  names : List String
  slots : List Slot
  /-- The slot that feeds each argument of an execution. -/
  positions : List Nat

namespace Artifact

/-- The statement and the tokens of its parameters. -/
def display (a : Artifact) : String :=
  a.statement ++ " (" ++ String.intercalate ", " a.order ++ ")"

/-- Equality of all parts, literals by their value. -/
def equals (a b : Artifact) : Bool :=
  a.vendor == b.vendor && a.name == b.name && a.body == b.body && a.statement == b.statement
    && Value.equalItems a.fixed b.fixed && a.order == b.order && a.names == b.names
    && a.slots == b.slots && a.positions == b.positions

end Artifact

namespace Prepared

/-- Settles the type of a parameter by its site, and refuses the sites that
cannot be prepared. A pattern is a text, whatever the column. -/
def resolve (p : Param) (s : Site) : Action Types Unit := do
  match s.lookup with
  | .unary .isNull | .unary .isNotNull => throw (.unsupportedLookup "isnull")
  | .binary .isIn =>
    if p.isArray then settle else throw (.arrayParameterRequired p.name)
  | .binary .contains | .binary .icontains | .binary .startsWith | .binary .endsWith
  | .binary .like | .binary .notLike => modify (·.inferType p .text)
  | _ => settle
where
  settle : Action Types Unit :=
    s.target.forM fun t => modify fun ts => (ts.inferType p t).inferNullable p s.nullable

def resolver : Visitor (Action Types) where
  types := get
  visit := resolve

/-- The body while it is written: what has been met, and what feeds it. -/
structure Layout where
  fixed : List Value := []
  order : List String := []
  names : List String := []
  slots : List Slot := []
  positions : List Nat := []
  /-- The first slot of every parameter met so far. -/
  bases : List (String × Nat) := []

abbrev Filling := ExceptT Failure (StateM Layout)

namespace Layout

/-- Notes a parameter at its first appearance. -/
def met (l : Layout) (p : Param) : Layout :=
  if l.order.contains p.token then l
  else { l with order := l.order ++ [p.token], names := l.names ++ [p.name] }

def metBound (l : Layout) : Bound → Layout
  | .row _ => l
  | .param p => l.met p

/-- An anonymous placeholder takes one more argument. -/
def used (l : Layout) (v : Vendor) (slot : Nat) : Layout :=
  if v.numbersPlaceholders then l else { l with positions := l.positions ++ [slot] }

/-- The slots of a parameter, one after the other. -/
def slotsOf (types : Types) (p : Param) : List Slot :=
  let fieldType := ((types.fieldType? p).map FieldType.bindType).getD .text
  (List.range p.slots).map fun i => ⟨.element p.token p.name i, fieldType⟩

/-- Opens the slots of a parameter. -/
def opened (l : Layout) (types : Types) (p : Param) : Layout :=
  ({ l with
      slots := l.slots ++ slotsOf types p
      bases := l.bases ++ [(p.token, l.slots.length)] } : Layout).met p

def base? (l : Layout) (token : String) : Option Nat :=
  (l.bases.find? (·.1 == token)).map (·.2)

/-- Opens a slot for the number of rows between two bounds. -/
def openedSpan (l : Layout) (low high : Bound) : Layout :=
  let l := (l.metBound low).metBound high
  { l with slots := l.slots ++ [⟨.span low high, .bigInteger⟩] }

end Layout

/-- The first slot of the parameter with a token. -/
def baseOf (types : Types) (params : Registry) (token : String) : Filling Nat := do
  let l ← get
  match l.base? token with
  | some base => return base
  | none =>
    match params.byToken? token with
    | none => throw (.unregisteredToken token)
    | some p =>
      set (l.opened types p)
      return l.slots.length

/-- The placeholder of a slot. -/
def place (v : Vendor) (slot : Nat) : Filling Part := do
  modify (·.used v slot)
  return .placeholder slot

/-- The part that a hole becomes. -/
def part (v : Vendor) (types : Types) (params : Registry) : Hole → Filling Part
  | .literal value => do
    let text ← MonadExcept.ofExcept (v.flavor.literal value)
    modify fun l => { l with fixed := l.fixed ++ [value] }
    return .verbatim text
  | .element token index => do
    let base ← baseOf types params token
    place v (base + index)
  | .span low high => do
    let slot := ((← get).metBound low |>.metBound high).slots.length
    modify (·.openedSpan low high)
    place v slot

/-- What is written into a hole. -/
def filling (v : Vendor) (types : Types) (params : Registry) (h : Hole) : Filling String :=
  return (← part v types params h).text v

/-- Writes the body of a query whose parameters have types. -/
def write (v : Vendor) (types : Types) (q : Query) : Except Failure Artifact := do
  let template := q.selectTemplate v.flavor
  let (outcome, layout) := (template.fill (filling v types q.params)).run {}
  let body ← outcome
  let positions :=
    if v.numbersPlaceholders then List.range layout.slots.length else layout.positions
  let name := statementName q.table.name body
  let argumentTypes := positions.filterMap fun i => layout.slots[i]?.map Slot.fieldType
  return {
    vendor := v
    name := name
    body := body
    statement := v.prepare name argumentTypes body
    fixed := layout.fixed
    order := layout.order
    names := layout.names
    slots := layout.slots
    positions := positions }

/-- Compiles a query: settles the types, then writes the body. -/
def compile (v : Vendor) (q : Query) : Action Types Artifact := do
  q.walk resolver
  let types ← get
  match q.params.params.find? fun p => (types.fieldType? p).isNone with
  | some p => throw (.missingParameterType p.name)
  | none => pure ()
  let artifact ← Action.ofExcept (write v types q)
  Action.note .debug ("Compiled `" ++ artifact.name ++ "` for " ++ v.name ++ ": "
    ++ Text.truncated artifact.statement)
  return artifact

end Prepared

end PreparedSql
