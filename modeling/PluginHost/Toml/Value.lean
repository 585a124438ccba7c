/-!
# Values and tables of a TOML document

A document is read line by line into a tree of tables.  How a table came into being decides what
may still be added to it (`Origin`): a header opens a table once, a dotted key may add to tables
that dotted keys have opened, and a header below a table does not count as opening it.
-/

namespace PluginHost.Toml

/-- A value.  A date or time is kept as its text; of other numbers with a fraction nothing is
kept. -/
inductive Value where
  | string (s : String)
  | integer (i : Int)
  | float
  | boolean (b : Bool)
  | datetime (text : String)
  | array (items : List Value)
  | table (members : List (String × Value))
  deriving Repr

/-- How a table came into being. -/
inductive Origin where
  /-- By its own header. -/
  | header
  /-- By the header of a table below it. -/
  | implied
  /-- By a dotted key. -/
  | dotted
  deriving DecidableEq, Repr

/-- What stands at a key while the document is read. -/
inductive Node where
  | value (v : Value)
  | table (origin : Origin) (members : List (String × Node))
  | tables (elements : List (List (String × Node)))

/-- The members of a table while the document is read. -/
abbrev Members := List (String × Node)

/-- What stands at a key. -/
def find? (key : String) : Members → Option Node
  | [] => none
  | (k, n) :: rest => if k == key then some n else find? key rest

/-- Puts a node at a key, in the place of the old one or behind all others. -/
def put (key : String) (node : Node) : Members → Members
  | [] => [(key, node)]
  | (k, n) :: rest => if k == key then (key, node) :: rest else (k, n) :: put key node rest

/-- Changes the table that a header path leads to; of repeated tables it is the last. -/
def changeAt (change : Members → Option Members) : List String → Members → Option Members
  | [], members => change members
  | key :: path, members =>
      match find? key members with
      | none => do some (put key (.table .implied (← changeAt change path [])) members)
      | some (.value _) => none
      | some (.table origin inner) => do
          some (put key (.table origin (← changeAt change path inner)) members)
      | some (.tables elements) =>
          match elements.reverse with
          | [] => none
          | last :: before => do
              let last ← changeAt change path last
              some (put key (.tables (before.reverse ++ [last])) members)

/-- Sets a new key of a table. -/
def setNew (key : String) (value : Value) (members : Members) : Option Members :=
  match find? key members with
  | none => some (put key (.value value) members)
  | some _ => none

/-- Sets a new key behind a dotted path.  All tables on the way belong to dotted keys. -/
def assign (key : String) (value : Value) : List String → Members → Option Members
  | [], members => setNew key value members
  | first :: path, members =>
      match find? first members with
      | none => do some (put first (.table .dotted (← assign key value path [])) members)
      | some (.table .dotted inner) => do
          some (put first (.table .dotted (← assign key value path inner)) members)
      -- a table below a header may be passed on the way, but not changed
      | some (.table .implied inner) =>
          if path.isEmpty then none
          else do some (put first (.table .implied (← assign key value path inner)) members)
      | some (.tables elements) =>
          match elements.reverse with
          | last :: before =>
              if path.isEmpty then none
              else do
                let last ← assign key value path last
                some (put first (.tables (before.reverse ++ [last])) members)
          | [] => none
      | some _ => none

/-- Opens a table by its header. -/
def openTable (key : String) (members : Members) : Option Members :=
  match find? key members with
  | none => some (put key (.table .header []) members)
  | some (.table .implied inner) => some (put key (.table .header inner) members)
  | some _ => none

/-- Adds a table to repeated tables. -/
def addTable (key : String) (members : Members) : Option Members :=
  match find? key members with
  | none => some (put key (.tables [[]]) members)
  | some (.tables elements) => some (put key (.tables (elements ++ [[]])) members)
  | some _ => none

mutual

/-- The value of a node. -/
def Node.toValue : Node → Value
  | .value v => v
  | .table _ members => .table (valuesOf members)
  | .tables elements => .array (tablesOf elements)

/-- The values of the members of a table. -/
def valuesOf : List (String × Node) → List (String × Value)
  | [] => []
  | (k, n) :: rest => (k, n.toValue) :: valuesOf rest

/-- The values of repeated tables. -/
def tablesOf : List (List (String × Node)) → List Value
  | [] => []
  | members :: rest => .table (valuesOf members) :: tablesOf rest

end

end PluginHost.Toml
