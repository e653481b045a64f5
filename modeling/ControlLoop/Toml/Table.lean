import ControlLoop.Config.Value

/-!
# Tables under construction

A TOML document builds its tables piece by piece. A table is open to further
keys as long as only longer names have mentioned it: it came into being on the
way to another table, or through dotted keys. What is written out in full, be it
a table under its own header, a table in braces or an array, is closed, and no
key is given a value twice.
-/

set_option autoImplicit false

namespace ControlLoop.Toml

/-- What a key holds while the document is being read. -/
inductive Node where
  | value (v : ConfigValue)
  /-- A table: whether only longer names mentioned it so far, whether dotted keys did, and its
  entries. -/
  | table (implicit dotted : Bool) (entries : List (String × Node))
  /-- The tables under repeated headers, the latest first. -/
  | tables (latest : List (String × Node)) (earlier : List (List (String × Node)))

/-- The entries of a table under construction. -/
abbrev Entries := List (String × Node)

namespace Entries

/-- What a key holds. -/
def get? (entries : Entries) (key : String) : Option Node := entries.lookup key

/-- The entries with a key that holds a node, in place of what it held. -/
def set (entries : Entries) (key : String) (node : Node) : Entries :=
  (key, node) :: entries.filter fun entry => entry.1 != key

/-- Gives a value to a key that has none, in a table reached by dotted keys exactly if there are
any. -/
def define? (dotted : Bool) (path : List String) (key : String) (value : ConfigValue)
    (entries : Entries) : Option Entries :=
  if dotted == path.isEmpty then none
  else
    match entries.get? key with
    | some _ => none
    | none => some (entries.set key (.value value))

/-- Gives a value to the key at the end of a dotted path. The tables on the way come into being as
needed, and none of them may be closed. -/
def assign? (path : List String) (key : String) (value : ConfigValue) (dotted : Bool)
    (entries : Entries) : (way : List String) → Option Entries
  | [] => define? dotted path key value entries
  | k :: ks =>
    match entries.get? k with
    | none => do return entries.set k (.table true true (← assign? path key value true [] ks))
    | some (.table true inner es) => do
      return entries.set k (.table true inner (← assign? path key value inner es ks))
    | some (.tables latest earlier) => do
      return entries.set k (.tables (← assign? path key value false latest ks) earlier)
    | some (.table false _ _) | some (.value _) => none

/-- A key with its dotted path, and its value. -/
abbrev Assignment := (List String × String) × ConfigValue

/-- Gives values to several keys, one after the other. -/
def assignAll? (entries : Entries) (assignments : List Assignment) : Option Entries :=
  assignments.foldlM (fun es a => assign? a.1.1 a.1.2 a.2 false es a.1.1) entries

/-- Changes the table that a header names the way to. The tables on the way come into being as
needed; of tables under repeated headers the latest is meant. -/
def modifyAt? (change : Entries → Option Entries) (entries : Entries) :
    (way : List String) → Option Entries
  | [] => change entries
  | k :: ks =>
    match entries.get? k with
    | none => do return entries.set k (.table true false (← modifyAt? change [] ks))
    | some (.table implicit dotted es) => do
      return entries.set k (.table implicit dotted (← modifyAt? change es ks))
    | some (.tables latest earlier) => do
      return entries.set k (.tables (← modifyAt? change latest ks) earlier)
    | some (.value _) => none

/-- The table under a header: a new one, or one that only longer headers mentioned. -/
def openTable? (assignments : List Assignment) (key : String) (entries : Entries) :
    Option Entries := do
  let start ← match entries.get? key with
    | none => some []
    | some (.table true false es) => some es
    | some _ => none
  return entries.set key (.table false false (← assignAll? start assignments))

/-- One more table under a repeated header. -/
def appendTable? (assignments : List Assignment) (key : String) (entries : Entries) :
    Option Entries := do
  let table ← assignAll? [] assignments
  match entries.get? key with
  | none => return entries.set key (.tables table [])
  | some (.tables latest earlier) => return entries.set key (.tables table (latest :: earlier))
  | some _ => none

end Entries

mutual

/-- A finished node as a value. -/
def Node.toValue : Node → ConfigValue
  | .value v => v
  | .table _ _ entries => .table (entryValues entries)
  | .tables latest earlier => .list ((tableValues earlier).reverse ++ [.table (entryValues latest)])

/-- Finished entries as values. -/
def entryValues : List (String × Node) → List (String × ConfigValue)
  | [] => []
  | (key, node) :: rest => (key, node.toValue) :: entryValues rest

/-- Finished tables as values. -/
def tableValues : List (List (String × Node)) → List ConfigValue
  | [] => []
  | entries :: rest => .table (entryValues entries) :: tableValues rest

end

end ControlLoop.Toml
