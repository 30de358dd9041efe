import GlyphStack.Toml.Grammar

/-!
# The tables of a TOML document

The statements of a document build up one table.  A name is given a value only
once.  Tables that a longer key implies may be opened later; they are remembered
as implied until then.
-/

namespace GlyphStack
namespace Toml

/-- A document under construction. -/
structure Builder where
  /-- The table so far. -/
  root : Table
  /-- The table in which names are being defined. -/
  context : Key
  /-- The tables that were only implied. -/
  implied : List Key
  /-- Whether the latest value of a key was an array, latest key first. -/
  arrays : List (Key × Bool)

/-- A step of the construction, which fails if the statements contradict each
other. -/
abbrev Build (α : Type) := StateT Builder Option α

namespace Builder

/-- The document without statements. -/
def initial : Builder where
  root := []
  context := []
  implied := []
  arrays := []

/-- Whether a key is a table that was only implied. -/
def isImplied (builder : Builder) (key : Key) : Bool :=
  builder.implied.contains key

/-- Whether the latest value of a key was an array. -/
def isArray (builder : Builder) (key : Key) : Bool :=
  (builder.arrays.lookup key).getD false

end Builder

/-- The table at a path.  A list of tables stands for its last table. -/
def tableAt? : Key -> Table -> Option Table
  | [], table => some table
  | name :: path, table =>
    match table.find? name with
    | some (.table inner) => tableAt? path inner
    | some (.tables items) => items.getLast?.bind (tableAt? path)
    | _ => none

/-- Change the table at a path.  A list of tables stands for its last table. -/
def changeAt (change : Table -> Table) : Key -> Table -> Option Table
  | [], table => some (change table)
  | name :: path, table =>
    match table.find? name with
    | some (.table inner) => do
      let changed <- changeAt change path inner
      return table.set name (.table changed)
    | some (.tables items) => do
      let last <- items.getLast?
      let changed <- changeAt change path last
      return table.set name (.tables (items.dropLast ++ [changed]))
    | _ => none

namespace Build

/-- Give a name a value in the table at a path. -/
def assign (path : Key) (name : String) (value : Value) : Build Unit := do
  let builder <- get
  let root <- liftM (changeAt (fun table => table.set name value) path builder.root)
  set { builder with root := root }

/-- Remember a table as implied. -/
def imply (key : Key) : Build Unit :=
  modify fun builder => { builder with implied := key :: builder.implied }

/-- A table is implied no longer. -/
def confirm (key : Key) : Build Unit :=
  modify fun builder => { builder with implied := builder.implied.filter (· != key) }

/-- Work in another table. -/
def enter (context : Key) : Build Unit :=
  modify fun builder => { builder with context := context }

/-- Define a name in the current table.  A name that has a value can be defined
again only if it was implied: an array takes the new value, a table stays. -/
def define (name : String) (value : Value) : Build Unit := do
  let builder <- get
  let table <- liftM (tableAt? builder.context builder.root)
  let key := builder.context ++ [name]
  match table.find? name with
  | none => assign builder.context name value
  | some _ =>
    if builder.isImplied key then
      confirm key
      if builder.isArray key then
        assign builder.context name value
    else
      failure

/-- Remember whether a name of the current table was given an array.  The empty
name stands for the table itself. -/
def recordType (name : String) (isArray : Bool) : Build Unit :=
  modify fun builder =>
    let path := if name = "" then builder.context else builder.context ++ [name]
    let key := if path.isEmpty then [""] else path
    { builder with arrays := (key, isArray) :: builder.arrays }

/-- Make sure that all tables on a path exist, given the path to where it
starts.  Missing tables are implied. -/
def establish (above : Key) : Key -> Build Unit
  | [] => pure ()
  | name :: path => do
    let builder <- get
    let table <- liftM (tableAt? above builder.root)
    let here := above ++ [name]
    match table.find? name with
    | none =>
      imply here
      assign above name (.table [])
    | some (.table _) => pure ()
    | some (.tables _) => pure ()
    | some _ => failure
    establish here path

/-- Open the table of a key and work in it. -/
def openTable (key : Key) : Build Unit := do
  let parent := key.dropLast
  establish [] parent
  enter parent
  match key.getLast? with
  | none => failure
  | some name => define name (.table [])
  enter key

/-- Open one more table of the list of tables of a key and work in it. -/
def openListed (key : Key) : Build Unit := do
  let parent := key.dropLast
  establish [] parent
  let builder <- get
  let table <- liftM (tableAt? parent builder.root)
  match key.getLast? with
  | none => failure
  | some name =>
    match table.find? name with
    | none => assign parent name (.tables [[]])
    | some (.tables items) => assign parent name (.tables (items ++ [[]]))
    | some _ => failure
  enter key

/-- Work in the tables that the leading names of a key imply, below the current
table. -/
def descend : Key -> Build Unit
  | [] => pure ()
  | name :: path => do
    let builder <- get
    let key := builder.context ++ [name]
    imply key
    openTable key
    descend path

end Build

/-- Give a value to the key of an inline table as a whole, next to those before
it. -/
def placeAt (value : Value) : Key -> Table -> Option Table
  | [], _ => none
  | [name], table => some (table.set name value)
  | name :: next :: path, table =>
    match table.find? name with
    | none => do
      let inner <- placeAt value (next :: path) []
      return table.set name (.table inner)
    | some (.table inner) => do
      let changed <- placeAt value (next :: path) inner
      return table.set name (.table changed)
    | some _ => none

/-- Whether a value is written as an array. -/
def Node.isArray : Node -> Bool
  | .array _ => true
  | .scalar _ | .inline _ => false

mutual

/-- The value of what is written for a name of the current table.  Inline tables
are also defined in the document while they are read. -/
def buildNode (name : String) (inArray : Bool) : Node -> Build Value
  | .scalar value => pure value
  | .array items => do
    Build.recordType name true
    let values <- buildItems name items
    return .array values
  | .inline entries => do
    let outer := (<- get).context
    let context := outer ++ [name]
    Build.imply context
    if inArray then Build.openListed context else Build.openTable context
    let table <- buildEntries context [] entries
    Build.enter outer
    return .table table

/-- The values of the items of an array. -/
def buildItems (name : String) : List Node -> Build (List Value)
  | [] => pure []
  | item :: items => do
    let value <- buildNode name true item
    let values <- buildItems name items
    return value :: values

/-- The table of the entries of an inline table, next to those before them. -/
def buildEntries (context : Key) (table : Table) : List Entry -> Build Table
  | [] => pure table
  | entry :: entries => do
    let extended <- buildEntry context table entry
    buildEntries context extended entries

/-- Define an entry below a table that is given, and add it to its table as a
whole. -/
def buildEntry (context : Key) (table : Table) : Entry -> Build Table
  | .mk key node => do
    let name := key.getLast?.getD ""
    Build.descend key.dropLast
    let value <- buildNode name false node
    Build.define name value
    Build.recordType name node.isArray
    Build.enter context
    liftM (placeAt value key table)

end

/-- Carry out a statement. -/
def Statement.build : Statement -> Build Unit
  | .table key => do
    Build.openTable key
    Build.recordType "" false
  | .tables key => do
    Build.openListed key
    Build.recordType "" false
  | .entry written => do
    let context := (<- get).context
    let _ <- buildEntry context [] written

/-- Carry out statements in order. -/
def buildAll : List Statement -> Build Unit
  | [] => pure ()
  | statement :: statements => do
    statement.build
    buildAll statements

/-- The table that a document defines, or nothing if it is not a TOML
document. -/
def Table.ofBytes? (bytes : List UInt8) : Option Table := do
  let text <- characters? bytes
  let statements <- statements? text
  let (_, builder) <- (buildAll statements).run Builder.initial
  return builder.root

end Toml
end GlyphStack
