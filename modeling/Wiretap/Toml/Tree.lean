/-
  Wiretap.Toml.Tree
  ─────────────────
  **THE TREE THAT STATEMENTS BUILD.**

  A document is built statement by statement: a header opens a table, a key puts a value
  into it.  Each table remembers how it came to be, since that decides what may still be
  done with it: one that a header opened is never opened again, one that dots made is only
  added to by dots, and one that was only passed through may still be opened.
-/
import Wiretap.Toml.Value

namespace Wiretap.Toml

/-! ## §1. Nodes. -/

/-- How a table came to be. -/
inductive Origin
  /-- A header went through it. -/
  | passed
  /-- Dots in a key made it. -/
  | dotted
  /-- A header opened it. -/
  | opened
  deriving DecidableEq, Repr

/-- A value of a document that is being built. -/
inductive Node
  | leaf (value : Toml)
  | table (origin : Origin) (entries : List (String × Node))
  /-- Tables that were opened one after another under one name. -/
  | tables (all : List (List (String × Node)))

/-- The entries of a table that is being built. -/
abbrev Entries := List (String × Node)

mutual

/-- The value of a node. -/
def Node.value : Node → Toml
  | .leaf v => v
  | .table _ entries => .table (valuesOf entries)
  | .tables all => .array (tablesOf all)

/-- The values of entries. -/
def valuesOf : Entries → List (String × Toml)
  | [] => []
  | (key, node) :: rest => (key, node.value) :: valuesOf rest

/-- The values of tables. -/
def tablesOf : List Entries → List Toml
  | [] => []
  | entries :: rest => .table (valuesOf entries) :: tablesOf rest

end

namespace Entries

/-- The node under a key. -/
def node? (es : Entries) (key : String) : Option Node := (List.find? (·.1 == key) es).map (·.2)

/-- With another node under a key that is there. -/
def replace (es : Entries) (key : String) (node : Node) : Entries :=
  es.map fun e => if e.1 == key then (key, node) else e

/-- With a node under a key that is not there. -/
def add (es : Entries) (key : String) (node : Node) : Entries := es ++ [(key, node)]

/-- Without a key. -/
def remove (es : Entries) (key : String) : Entries := es.filter (·.1 != key)

/-- With the last of some tables changed. -/
def changeLast (f : Entries → Option Entries) (all : List Entries) : Option (List Entries) :=
  match all.getLast? with
  | none => none
  | some last => (f last).map fun last => all.dropLast ++ [last]

/-! ## §2. Headers. -/

/-- Goes down the keys of a header but the last, and changes the table found there. -/
def descend (change : String → Entries → Option Entries) :
    (path : List String) → Entries → Option Entries
  | [], _ => none
  | [key], es => change key es
  | key :: next :: path, es =>
    match es.node? key with
    | none => (descend change (next :: path) []).map fun sub => es.add key (.table .passed sub)
    | some (.table origin sub) =>
      (descend change (next :: path) sub).map fun sub => es.replace key (.table origin sub)
    | some (.tables all) =>
      (changeLast (descend change (next :: path)) all).map fun all => es.replace key (.tables all)
    | some (.leaf _) => none

/-- Opens a table under a key: a new one, or one that was only passed through, which then
counts as the last. -/
def openOne (key : String) (es : Entries) : Option Entries :=
  match es.node? key with
  | none => some (es.add key (.table .opened []))
  | some (.table .passed sub) => some ((es.remove key).add key (.table .opened sub))
  | some _ => none

/-- Opens one more table of those under a key. -/
def openMore (key : String) (es : Entries) : Option Entries :=
  match es.node? key with
  | none => some (es.add key (.tables [[]]))
  | some (.tables all) => some (es.replace key (.tables (all ++ [[]])))
  | some _ => none

/-- Opens a table. -/
def openTable (path : List String) (es : Entries) : Option Entries := es.descend openOne path

/-- Opens one more table of a list of tables. -/
def openNext (path : List String) (es : Entries) : Option Entries := es.descend openMore path

/-! ## §3. Keys. -/

/-- Puts a value under a key with dots.  Tables on the way are made or must not have been
opened; the one that takes the value must be the table itself, which `here` says, or made
by dots. -/
def put (value : Node) : (here : Bool) → (key : List String) → Entries → Option Entries
  | _, [], _ => none
  | here, [key], es =>
    if here && (es.node? key).isNone then some (es.add key value) else none
  | _, key :: next :: path, es =>
    match es.node? key with
    | none => (put value true (next :: path) []).map fun sub => es.add key (.table .dotted sub)
    | some (.table .opened _) => none
    | some (.table origin sub) =>
      (put value (origin == .dotted) (next :: path) sub).map fun sub =>
        es.replace key (.table origin sub)
    | some (.tables all) =>
      (changeLast (put value false (next :: path)) all).map fun all => es.replace key (.tables all)
    | some (.leaf _) => none

/-- Puts a value under a key into the table that a header opened. -/
def putUnder (header key : List String) (value : Toml) (es : Entries) : Option Entries :=
  match header with
  | [] => es.put (.leaf value) true key
  | _ =>
    es.descend (fun last es =>
      match es.node? last with
      | some (.table origin sub) =>
        (put (.leaf value) true key sub).map fun sub => es.replace last (.table origin sub)
      | some (.tables all) =>
        (changeLast (put (.leaf value) true key) all).map fun all => es.replace last (.tables all)
      | _ => none) header

end Entries

end Wiretap.Toml
