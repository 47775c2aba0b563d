namespace Grf.Toml

/-- A value of a settings file. Of arrays, of fractional numbers and of points in time only the
presence matters. -/
inductive Value where
  | text (value : String)
  | integer (value : Int)
  | boolean (value : Bool)
  | float
  | moment
  | array
  /-- A table; one that was written inline is complete. -/
  | table (isInline : Bool) (entries : List (String × Value))
  /-- A list of tables, the last of which is the current one. -/
  | tables (items : List Value)

namespace Value

def empty : Value := table false []

/-- Puts a value in the place of the one under the same key, or at the end. -/
def replace (key : String) (value : Value) : List (String × Value) → List (String × Value)
  | [] => [(key, value)]
  | entry :: rest =>
    if entry.1 = key then (key, value) :: rest else entry :: replace key value rest

/-- The entries of a table, or of the current table of a list. -/
def entries? : Value → Option (List (String × Value))
  | table _ entries => some entries
  | tables items =>
    match items.getLast? with
    | some (table _ entries) => some entries
    | _ => none
  | _ => none

/-- The value under a path of keys. -/
def get? : List String → Value → Option Value
  | [], v => some v
  | key :: path, v =>
    match v.entries? with
    | none => none
    | some entries =>
      match entries.lookup key with
      | none => none
      | some next => get? path next

/-- Changes a table, or the current table of a list. -/
def change (f : Bool → List (String × Value) → Option Value) : Value → Option Value
  | table isInline entries => f isInline entries
  | tables items =>
    match items.reverse with
    | table isInline entries :: earlier =>
      (f isInline entries).map fun last => tables (last :: earlier).reverse
    | _ => none
  | _ => none

/-- Makes sure that there are tables all along a path. A new table is inline if the one around it
is. It fails where something else stands in the way. -/
def open? : List String → Value → Option Value
  | [], v => v.entries?.map fun _ => v
  | key :: path, v =>
    v.change fun isInline entries =>
      let next := (entries.lookup key).getD (table isInline [])
      (open? path next).map fun next => table isInline (replace key next entries)

/-- Puts a new value under a key of the table at the end of a path, which must not be inline. -/
def assign? (v : Value) (key : String) (value : Value) : List String → Option Value
  | [] =>
    v.change fun isInline entries =>
      if isInline || (entries.lookup key).isSome then none
      else some (table isInline (entries ++ [(key, value)]))
  | next :: path =>
    v.change fun isInline entries =>
      match entries.lookup next with
      | none => none
      | some inner =>
        (inner.assign? key value path).map fun inner =>
          table isInline (replace next inner entries)

/-- Puts a value under a path of keys, whatever was there before. A step to something that is no
table stays where it is. -/
def put (v value : Value) : List String → Value
  | [] => v
  | [key] =>
    (v.change fun isInline entries => some (table isInline (replace key value entries))).getD v
  | key :: path =>
    match v.entries? with
    | none => v
    | some entries =>
      let next := (entries.lookup key).getD empty
      if next.entries?.isSome then
        (v.change fun isInline entries =>
          some (table isInline (replace key (next.put value path) entries))).getD v
      else v.put value path

/-- Starts one more table in the list under a path of keys, which must be free or such a list. Where
something else than a table stands on the way, the list comes to stand beside it. -/
def append? (v : Value) (path : List String) : Option Value :=
  let opened := (open? path.dropLast v).getD v
  match get? path opened with
  | none => some (opened.put (tables [empty]) path)
  | some (tables items) => some (opened.put (tables (items ++ [empty])) path)
  | some _ => none

/-- Whether a value is a table that was written inline. -/
def isInline : Value → Bool
  | table isInline _ => isInline
  | _ => false

/-- Whether a value is a single table. -/
def isTable : Value → Bool
  | table _ _ => true
  | _ => false

end Value

end Grf.Toml
