/-! What a TOML document holds: scalars, arrays and tables. A table remembers how it came to be,
because that decides what may still be added to it. -/
namespace DocGraph.Toml

inductive Origin
  /-- Named by a header of its own; also the document itself and the elements of table arrays. -/
  | header
  /-- Only implied by the header of a table inside it. -/
  | implied
  /-- Created by a dotted key, or implied and then entered by one. -/
  | dotted
  /-- Written between braces, and complete. -/
  | inline
  deriving DecidableEq, Repr

/-- The origin of a table that the path of a header or a dotted key leads through. Inline tables
cannot be entered, nor can a dotted key enter a table with a header; an implied table that a dotted
key enters counts as created by it. -/
def Origin.entered? (isDotted : Bool) : Origin → Option Origin
  | .header => if isDotted then none else some .header
  | .implied => some (if isDotted then .dotted else .implied)
  | .dotted => some .dotted
  | .inline => none

inductive Item
  | text (value : String)
  | integer (value : Int)
  | float (digits : String)
  | boolean (value : Bool)
  /-- A date, a time of day, or both. -/
  | moment (text : String)
  | array (items : List Item)
  /-- An array of tables, each with a header, the last one first. -/
  | tables (elements : List (List (String × Item)))
  | table (origin : Origin) (entries : List (String × Item))

abbrev Entries := List (String × Item)

structure KeyPath where
  parents : List String
  last : String
  deriving DecidableEq, Repr

namespace Entries

def find? (entries : Entries) (key : String) : Option Item := List.lookup key entries

def update (key : String) (change : Option Item → Option Item) : Entries → Option Entries
  | [] => (change none).map fun item => [(key, item)]
  | (other, item) :: rest =>
    if other = key then (change (some item)).map fun item => (other, item) :: rest
    else (update key change rest).map ((other, item) :: ·)

/-- Changes the table at the end of a path, creating the tables on the way. An array of tables is
entered at its last element. -/
def within (isDotted : Bool) (change : Origin → Entries → Option Entries) :
    List String → Origin → Entries → Option Entries
  | [], origin, entries => change origin entries
  | key :: path, _, entries => update key
    (fun
      | none =>
        let origin := if isDotted then Origin.dotted else Origin.implied
        (within isDotted change path origin []).map (.table origin)
      | some (.table origin inner) => do
        let origin ← origin.entered? isDotted
        (within isDotted change path origin inner).map (.table origin)
      | some (.tables (last :: earlier)) =>
        (within isDotted change path .header last).map fun last => .tables (last :: earlier)
      | some _ => none) entries

def insertNew (key : String) (item : Item) (entries : Entries) : Option Entries :=
  entries.update key fun old => if old.isSome then none else some item

/-- Assigns to a key of a table. A dotted key does not extend the elements
of a table array. -/
def assign (path : KeyPath) (item : Item) (origin : Origin) (entries : Entries) : Option Entries :=
  within true
    (fun origin entries =>
      if path.parents.isEmpty || origin = .dotted then insertNew path.last item entries else none)
    path.parents origin entries

/-- Opens the table of a header; a table has one header at most. -/
def openTable (path : KeyPath) (entries : Entries) : Option Entries :=
  within false
    (fun _ entries => entries.update path.last fun
      | none => some (.table .header [])
      | some (.table .implied inner) => some (.table .header inner)
      | some _ => none)
    path.parents .header entries

def openElement (path : KeyPath) (entries : Entries) : Option Entries :=
  within false
    (fun _ entries => entries.update path.last fun
      | none => some (.tables [[]])
      | some (.tables elements) => some (.tables ([] :: elements))
      | some _ => none)
    path.parents .header entries

end Entries

end DocGraph.Toml
