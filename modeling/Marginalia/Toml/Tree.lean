namespace Marginalia

-- A TOML value or table. A table is `implied` if only tables in it have been written so far,
-- and `dotted` if a dotted key made it; an inline table is closed.
inductive Toml where
  | text (content : String)
  | integer (value : Int)
  | decimal
  | truth (value : Bool)
  | moment
  | array (items : List Toml)
  | inline (entries : List (String × Toml))
  | table (implied dotted : Bool) (entries : List (String × Toml))
  | tables (items : List (List (String × Toml)))

namespace Toml

abbrev Entries := List (String × Toml)

def find? (key : String) : Entries → Option Toml
  | [] => none
  | (k, v) :: rest => if k = key then some v else find? key rest

-- Puts a value under a key, in the old place if the key is there already.
def put (key : String) (value : Toml) : Entries → Entries
  | [] => [(key, value)]
  | (k, v) :: rest => if k = key then (key, value) :: rest else (k, v) :: put key value rest

def drop (key : String) (entries : Entries) : Entries := entries.filter fun e => e.1 != key

-- Edits the entries that a path leads to; the edit learns whether a dotted key made their
-- table. Missing tables on the way come into being, a list of tables leads into its last one,
-- and a dotted key may not enter a table that was written out.
def descend {α : Type} (byDots : Bool) (edit : Bool → Entries → Option (α × Entries)) :
    Bool → List String → Entries → Option (α × Entries)
  | dotted, [], entries => edit dotted entries
  | _, key :: path, entries =>
    match find? key entries with
    | none => do
      let (a, inner) ← descend byDots edit byDots path []
      return (a, put key (.table true byDots inner) entries)
    | some (.table implied dotted inner) =>
      if byDots && !implied then none
      else do
        let (a, inner) ← descend byDots edit dotted path inner
        return (a, put key (.table implied dotted inner) entries)
    | some (.tables items) => do
      let last ← items.getLast?
      let (a, inner) ← descend byDots edit false path last
      return (a, put key (.tables (items.dropLast ++ [inner])) entries)
    | some _ => none

-- Adds a value under a dotted key. The key must be new, and a table takes either dotted keys
-- or plain ones.
def assign (path : List String) (key : String) (value : Toml) (entries : Entries) : Option Entries := do
  let add (dotted : Bool) (inner : Entries) : Option (Unit × Entries) :=
    if dotted == path.isEmpty || (find? key inner).isSome then none
    else some ((), inner ++ [(key, value)])
  let (_, entries) ← descend true add false path entries
  return entries

-- A document in the making: the tables closed so far, and the table that lines go into with
-- the header it stands under.
structure Draft where
  root : Entries
  header : List String
  listed : Bool
  current : Entries

namespace Draft

def blank : Draft := ⟨[], [], false, []⟩

-- Puts the current table where its header says.
def close (d : Draft) : Option Entries :=
  match d.header.getLast? with
  | none => some d.current
  | some key =>
    let insert (_ : Bool) (entries : Entries) : Option (Unit × Entries) :=
      match d.listed, find? key entries with
      | true, some (.tables items) => some ((), put key (.tables (items ++ [d.current])) entries)
      | false, none => some ((), put key (.table false false d.current) entries)
      | _, _ => none
    (descend false insert false d.header.dropLast d.root).map (·.2)

-- A header of one table. A table that was only implied so far goes on; any other is refused.
def openTable (d : Draft) (header : List String) : Option Draft := do
  let root ← d.close
  let key ← header.getLast?
  let fetch (_ : Bool) (entries : Entries) : Option (Entries × Entries) :=
    match find? key entries with
    | none => some ([], entries)
    | some (.table true false inner) => some (inner, drop key entries)
    | some _ => none
  let (current, root) ← descend false fetch false header.dropLast root
  return ⟨root, header, false, current⟩

-- A header of one more table in a list of tables.
def openListed (d : Draft) (header : List String) : Option Draft := do
  let root ← d.close
  let key ← header.getLast?
  let prepare (_ : Bool) (entries : Entries) : Option (Unit × Entries) :=
    match find? key entries with
    | none => some ((), put key (.tables []) entries)
    | some (.tables _) => some ((), entries)
    | some _ => none
  let (_, root) ← descend false prepare false header.dropLast root
  return ⟨root, header, true, []⟩

def assign (d : Draft) (path : List String) (key : String) (value : Toml) : Option Draft := do
  return { d with current := ← Toml.assign path key value d.current }

end Draft

end Toml

end Marginalia
