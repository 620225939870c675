/-
**Tables of a TOML document.**

A document is a tree of tables.  Lines put values into the table whose header stood last; a key with
dots leads through tables of its own.  A table has one place where it is written: by a header, by
dotted keys of one table, or inline.  Only tables that were merely passed through on the way to
another header can still get a header of their own.

Main definitions:

* `Testbench.Toml.Node`, `Testbench.Toml.Entries` — the tree;
* `Testbench.Toml.descend` — following a key through the tree;
* `Testbench.Toml.Document` — a document while it is being read;
* `Testbench.Toml.Document.openTable`, `Testbench.Toml.Document.openElement`,
  `Testbench.Toml.Document.assign`, `Testbench.Toml.Document.close` — what a line does.
-/

import Testbench.Data

set_option relaxedAutoImplicit false
set_option autoImplicit false

namespace Testbench.Toml

/-! ### The tree -/

/-- What a key stands for. -/
inductive Node
  | value (d : Data)
  /-- A table; `passed` if no header named it, `dotted` if dotted keys made it. -/
  | table (passed dotted : Bool) (entries : List (String × Node))
  /-- Tables of one name, the latest first. -/
  | tables (all : List (List (String × Node)))

/-- The keys of a table in order. -/
abbrev Entries := List (String × Node)

/-- What a key stands for in a table. -/
def find? (key : String) : Entries → Option Node
  | [] => none
  | (k, n) :: rest => if k = key then some n else find? key rest

/-- The table with a key standing for something new; a new key comes last. -/
def put (key : String) (node : Node) : Entries → Entries
  | [] => [(key, node)]
  | (k, n) :: rest => if k = key then (key, node) :: rest else (k, n) :: put key node rest

/-- The table without a key. -/
def remove (key : String) (entries : Entries) : Entries := entries.filter fun (k, _) => k ≠ key

/-- Follows a path of keys and changes the table it leads to.  Tables on the way are made if they
are missing; a dotted path goes through no table that has a header.  `change` is told whether the
table was made by dotted keys. -/
def descend {α : Type} (dotted : Bool) (change : Bool → Entries → Option (α × Entries)) :
    List String → Bool → Entries → Option (α × Entries)
  | [], isDotted, entries => change isDotted entries
  | key :: path, _, entries =>
      match find? key entries with
      | none =>
          (descend dotted change path dotted []).map fun (a, sub) =>
            (a, put key (.table true dotted sub) entries)
      | some (.table passed isDotted sub) =>
          if dotted && !passed then none
          else
            (descend dotted change path isDotted sub).map fun (a, sub) =>
              (a, put key (.table passed isDotted sub) entries)
      | some (.tables (latest :: older)) =>
          (descend dotted change path false latest).map fun (a, sub) =>
            (a, put key (.tables (sub :: older)) entries)
      | some (.tables []) | some (.value _) => none

/-- Puts a value behind a dotted key of a table. -/
def assign (path : List String) (key : String) (node : Node) (entries : Entries) :
    Option Entries :=
  let change (isDotted : Bool) (entries : Entries) : Option (Unit × Entries) :=
    if isDotted = path.isEmpty then none
    else
      match find? key entries with
      | some _ => none
      | none => some ((), entries ++ [(key, node)])
  (descend true change path false entries).map (·.2)

mutual

/-- What a key stands for, as data. -/
def Node.toData : Node → Data
  | .value d => d
  | .table _ _ entries => .record (entriesToData entries)
  | .tables all => .list (tablesToData all).reverse

/-- The keys of a table, as fields. -/
def entriesToData : List (String × Node) → List (String × Data)
  | [] => []
  | (key, node) :: rest => (key, node.toData) :: entriesToData rest

/-- Tables of one name, as data. -/
def tablesToData : List (List (String × Node)) → List Data
  | [] => []
  | entries :: rest => .record (entriesToData entries) :: tablesToData rest

end

/-! ### Reading line by line -/

/-- The part of a header before its last key, and that key. -/
def splitLast (header : List String) : Option (List String × String) :=
  header.getLast?.map fun key => (header.dropLast, key)

/-- A document while it is being read: the tables that are finished, and the table that lines go
into, with its header. -/
structure Document where
  root : Entries := []
  header : List String := []
  /-- The table is one of several of its name. -/
  repeated : Bool := false
  current : Entries := []

namespace Document

/-- The keys of all tables, the current one put in its place. -/
def close (doc : Document) : Option Entries :=
  match splitLast doc.header with
  | none => some doc.current
  | some (parent, key) =>
      let change (_ : Bool) (entries : Entries) : Option (Unit × Entries) :=
        if doc.repeated then
          match find? key entries with
          | none => some ((), put key (.tables [doc.current]) entries)
          | some (.tables all) => some ((), put key (.tables (doc.current :: all)) entries)
          | some _ => none
        else some ((), put key (.table false false doc.current) entries)
      (descend false change parent false doc.root).map (·.2)

/-- Starts the table of a header. -/
def openTable (doc : Document) (header : List String) : Option Document := do
  let root ← doc.close
  let (parent, key) ← splitLast header
  let change (_ : Bool) (entries : Entries) : Option (Entries × Entries) :=
    match find? key entries with
    | none => some ([], entries)
    | some (.table true false sub) => some (sub, remove key entries)
    | some _ => none
  let (current, root) ← descend false change parent false root
  return { root, header, repeated := false, current }

/-- Starts one more table of a header that can be repeated. -/
def openElement (doc : Document) (header : List String) : Option Document := do
  let root ← doc.close
  let (parent, key) ← splitLast header
  let change (_ : Bool) (entries : Entries) : Option (Unit × Entries) :=
    match find? key entries with
    | none | some (.tables _) => some ((), entries)
    | some _ => none
  let (_, root) ← descend false change parent false root
  return { root, header, repeated := true, current := [] }

/-- Puts a value behind a dotted key of the current table. -/
def assign (doc : Document) (path : List String) (key : String) (d : Data) : Option Document :=
  (Toml.assign path key (.value d) doc.current).map fun current => { doc with current }

end Document

end Testbench.Toml
