import FlashFleet.Toml.Node
/-!
# Adding to a document

A document is put together line by line: a header opens a table, a key puts a
value into the open one. What is already there decides whether a line may add
to it: nothing is defined twice, a table between braces is closed, and a table
with a header of its own cannot be extended by dotted keys.

## Main results

* `insert_of_lookup_eq_none` — a new key comes last and changes nothing else.
-/

namespace FlashFleet.Toml

/-! ## Keys of a table -/

/-- What a key stands for. -/
def lookup (key : String) : Entries → Option Node
  | [] => none
  | (k, node) :: rest => if k = key then some node else lookup key rest

/-- The table with another meaning for a key that it has. -/
def replace (key : String) (node : Node) : Entries → Entries
  | [] => []
  | (k, old) :: rest => if k = key then (k, node) :: rest else (k, old) :: replace key node rest

/-- The table without a key. -/
def erase (key : String) : Entries → Entries
  | [] => []
  | (k, old) :: rest => if k = key then rest else (k, old) :: erase key rest

/-! ## Reaching into a document -/

/-- A path may lead into a table that is not closed; that of a dotted key not
into one with a header either. -/
def Origin.admits (dotted : Bool) : Origin → Bool
  | .inline => false
  | .header => !dotted
  | .implied => true
  | .dotted => true

/-- Changes the table at the end of a path. Tables missing on the way are made,
and an array of tables stands for its last one. -/
def within (dotted : Bool) : List String → (Origin → Entries → Option Entries) →
    Origin → Entries → Option Entries
  | [], edit, origin, entries => edit origin entries
  | key :: path, edit, _, entries =>
    match lookup key entries with
    | none =>
      let fresh := if dotted then Origin.dotted else .implied
      (within dotted path edit fresh []).map fun child => entries ++ [(key, .table fresh child)]
    | some (.table origin child) =>
      if origin.admits dotted then
        (within dotted path edit origin child).map fun child =>
          replace key (.table origin child) entries
      else none
    | some (.tables items) =>
      match items.getLast? with
      | none => none
      | some child =>
        (within dotted path edit .header child).map fun child =>
          replace key (.tables (items.dropLast ++ [child])) entries
    | some _ => none

/-! ## Keys with values -/

/-- Puts a new key into a table. A table made by dotted keys takes only dotted
keys, and any other table only keys of its own. -/
def insert (viaPath : Bool) (key : String) (node : Node) (origin : Origin) (entries : Entries) :
    Option Entries :=
  if (origin == .dotted) == viaPath then
    match lookup key entries with
    | none => some (entries ++ [(key, node)])
    | some _ => none
  else none

/-- Puts a value at a dotted key, given by the path to it and its last part. -/
def put (origin : Origin) (entries : Entries) (path : List String) (key : String) (node : Node) :
    Option Entries :=
  within true path (insert (!path.isEmpty) key node) origin entries

/-- The table between braces with the given keys and values. -/
def ofPairs : List (List String × String × Node) → Entries → Option Entries
  | [], entries => some entries
  | (path, key, node) :: rest, entries =>
    match put .inline entries path key node with
    | none => none
    | some entries => ofPairs rest entries

/-! ## Headers -/

/-- A header: the path to its table, the last part of its key, and whether the
table is the next one of an array. -/
structure Header where
  path : List String
  key : String
  repeated : Bool
  deriving DecidableEq, Repr

/-- A document being read: the tables closed so far, the header of the open
table, and what the open table holds. Before the first header the open table is
the document itself. -/
structure Draft where
  closed : Entries := []
  header : Option Header := none
  opened : Entries := []

/-- The document when the open table ends. -/
def Draft.close (draft : Draft) : Option Entries :=
  match draft.header with
  | none => some draft.opened
  | some ⟨path, key, true⟩ =>
    within false path (fun _ entries =>
      match lookup key entries with
      | none => some (entries ++ [(key, .tables [draft.opened])])
      | some (.tables items) => some (replace key (.tables (items ++ [draft.opened])) entries)
      | some _ => none) .header draft.closed
  | some ⟨path, key, false⟩ =>
    within false path (fun _ entries => some (entries ++ [(key, .table .header draft.opened)]))
      .header draft.closed

/-- What a header finds at its key: nothing, or a table that so far was only
part of longer headers. It goes on with what that table holds. -/
def heldAt (key : String) (entries : Entries) : Option Entries :=
  match lookup key entries with
  | none => some []
  | some (.table .implied child) => some child
  | some _ => none

/-- The table at the end of a path, if there is one already. -/
def reach : List String → Entries → Option Entries
  | [], entries => some entries
  | key :: path, entries =>
    match lookup key entries with
    | some (.table _ child) => reach path child
    | some (.tables items) =>
      match items.getLast? with
      | some child => reach path child
      | none => none
    | _ => none

/-- Opens the table of a header. -/
def Draft.start (draft : Draft) (header : Header) : Option Draft := do
  let closed ← draft.close
  if header.repeated then
    let closed ← within false header.path (fun _ entries =>
      match lookup header.key entries with
      | none => some (entries ++ [(header.key, .tables [])])
      | some (.tables _) => some entries
      | some _ => none) .header closed
    return { closed := closed, header := some header }
  else
    let opened ← heldAt header.key ((reach header.path closed).getD [])
    let closed ← within false header.path (fun _ entries => some (erase header.key entries))
      .header closed
    return { closed := closed, header := some header, opened := opened }

/-- Puts a value into the open table. -/
def Draft.add (draft : Draft) (path : List String) (key : String) (node : Node) : Option Draft :=
  (put .header draft.opened path key node).map fun opened => { draft with opened := opened }

/-- A new key comes last and changes nothing else. -/
theorem insert_of_lookup_eq_none {key : String} {node : Node} {entries : Entries}
    (h : lookup key entries = none) :
    insert false key node .header entries = some (entries ++ [(key, node)]) := by
  simp [insert, h]

end FlashFleet.Toml
