import TagRental.Toml.Value

/-!
# Putting tables together

A table of a document may be written in several places: under its own header, under headers of
tables inside it, and by dotted keys.  Which of these may be mixed depends on how a table came
about, so while a document is put together every table carries its *origin*; afterwards the origin
is forgotten and plain values remain (`Node.value`).

* A table with a header of its own is closed to dotted keys from outside and to a second header.
* A table that exists only because a header named something inside it may still get its own header.
  It then moves behind the other entries of the table around it, which is where the header stands.
* A table that dotted keys made takes more dotted keys, and no header.

A list of tables is entered through its last table, whichever way a path leads there.
-/

namespace TagRental
namespace Toml

/-- How a table came about. -/
inductive Origin where
  | header
  | implied
  | dotted
  deriving Repr, DecidableEq

/-- An entry of a table in the making: a finished value, a table, or a list of tables. -/
inductive Node where
  | value (v : Value)
  | table (origin : Origin) (entries : List (String × Node))
  | tables (done : List (List (String × Node)))

/-- A table in the making. -/
abbrev Nodes := List (String × Node)

mutual

/-- A finished entry. -/
def Node.toValue : Node → Value
  | .value v => v
  | .table _ entries => .table (nodesToEntries entries)
  | .tables done => .tables (tablesToEntries done)

/-- The finished entries of a table. -/
def nodesToEntries : List (String × Node) → List (String × Value)
  | [] => []
  | (key, node) :: rest => (key, node.toValue) :: nodesToEntries rest

/-- The finished tables of a list. -/
def tablesToEntries : List (List (String × Node)) → List (List (String × Value))
  | [] => []
  | entries :: rest => nodesToEntries entries :: tablesToEntries rest

end

namespace Nodes

/-- The entry under a key. -/
def get? (nodes : Nodes) (key : String) : Option Node := (nodes.find? fun e => e.1 == key).map (·.2)

/-- Puts a new entry under a key that has one. -/
def replace (nodes : Nodes) (key : String) (node : Node) : Nodes :=
  nodes.map fun e => if e.1 == key then (key, node) else e

/-- Takes out the entry under a key. -/
def erase (nodes : Nodes) (key : String) : Nodes := nodes.filter fun e => e.1 != key

/-- Adds an entry behind the others. -/
def add (nodes : Nodes) (key : String) (node : Node) : Nodes := nodes ++ [(key, node)]

/-- Changes the table at a path.  A table on the way that does not exist yet is made, by dots or by
a header; by dots no table with its own header is entered. -/
def change (byDots : Bool) (f : Origin → Nodes → Option Nodes) :
    List String → Origin → Nodes → Option Nodes
  | [], origin, nodes => f origin nodes
  | key :: path, _, nodes =>
    match nodes.get? key with
    | none =>
      let origin := if byDots then Origin.dotted else .implied
      (change byDots f path origin []).map fun inner => nodes.add key (.table origin inner)
    | some (.value _) => none
    | some (.table origin inner) =>
      if byDots ∧ origin = .header then none
      else (change byDots f path origin inner).map fun inner =>
        nodes.replace key (.table origin inner)
    | some (.tables done) =>
      (change byDots f path .header (done.getLast?.getD [])).map fun inner =>
        nodes.replace key (.tables (done.dropLast ++ [inner]))

/-- Adds a value under a dotted key.  All tables that the dots lead through must be made by dots,
and the last key must be new. -/
def addPair (nodes : Nodes) (path : List String) (key : String) (v : Value) : Option Nodes :=
  change true (fun origin inner =>
    if (origin == .dotted) == path.isEmpty then none
    else if (inner.get? key).isSome then none
    else some (inner.add key (.value v))) path .header nodes

end Nodes

/-- A key, taken apart at its dots: the path, and the last part. -/
structure Key where
  path : List String
  last : String
  deriving Repr, DecidableEq

/-- A line that gives a key a value. -/
structure Pair where
  key : Key
  value : Value

/-- The header of a table, or of one more table of a list. -/
structure Header where
  isList : Bool
  key : Key
  deriving Repr, DecidableEq

/-- Adds pairs one after another. -/
def Nodes.addPairs (nodes : Nodes) (pairs : List Pair) : Option Nodes :=
  pairs.foldlM (fun nodes p => nodes.addPair p.key.path p.key.last p.value) nodes

/-- A header and the pairs under it. -/
structure Section where
  header : Header
  pairs : List Pair

/-- Adds a section to the table of the document. -/
def Nodes.addSection (root : Nodes) (s : Section) : Option Nodes :=
  let key := s.header.key.last
  let extend (_ : Origin) (outer : Nodes) : Option Nodes :=
    match s.header.isList, outer.get? key with
    | false, none => (Nodes.addPairs [] s.pairs).map fun t => outer.add key (.table .header t)
    | false, some (.table .implied inner) =>
      (Nodes.addPairs inner s.pairs).map fun t => (outer.erase key).add key (.table .header t)
    | true, none => (Nodes.addPairs [] s.pairs).map fun t => outer.add key (.tables [t])
    | true, some (.tables done) =>
      (Nodes.addPairs [] s.pairs).map fun t => outer.replace key (.tables (done ++ [t]))
    | _, some _ => none
  Nodes.change false extend s.header.key.path .header root

/-- The table of a document: the pairs in front of the first header, then the sections. -/
def assemble (leading : List Pair) (sections : List Section) : Option Entries := do
  let root ← Nodes.addPairs [] leading
  let root ← sections.foldlM Nodes.addSection root
  some (nodesToEntries root)

/-- The table that pairs in braces make. -/
def inlineTable (pairs : List Pair) : Option Value :=
  (Nodes.addPairs [] pairs).map fun nodes => .table (nodesToEntries nodes)

end Toml
end TagRental
