/-! Lists of values under distinct keys. A key keeps the place where it first came up. -/
namespace CommandGrammar

abbrev Keyed (α : Type) := List (String × α)

namespace Keyed
variable {α : Type}

/-- Changes the value under a key; a new key comes last, with what becomes of nothing. -/
def alter (entries : Keyed α) (key : String) (f : Option α → α) : Keyed α :=
  match entries with
  | [] => [(key, f none)]
  | (k, v) :: rest => if k = key then (k, f (some v)) :: rest else (k, v) :: alter rest key f

/-- The value under a key becomes the given one. -/
def set (entries : Keyed α) (key : String) (value : α) : Keyed α :=
  entries.alter key fun _ => value

/-- The entry at its place among entries sorted by key. One under the same key gives way. -/
def insert (entries : Keyed α) (key : String) (value : α) : Keyed α :=
  match entries with
  | [] => [(key, value)]
  | (k, v) :: rest =>
    if key = k then (key, value) :: rest
    else if key < k then (key, value) :: (k, v) :: rest
    else (k, v) :: insert rest key value

/-- Sorted by key; of several values under a key the last one counts. -/
def sorted (entries : List (String × α)) : Keyed α :=
  entries.foldl (fun entries entry => insert entries entry.1 entry.2) []

/-- In order of first appearance; of several values under a key the last one counts. -/
def ofList (entries : List (String × α)) : Keyed α :=
  entries.foldl (fun entries entry => set entries entry.1 entry.2) []

end Keyed
end CommandGrammar
