import DocGraph.Lookup.Table

/-! Text macros. A reference is a dollar sign and the name after it, which ends before the next
space, tab, carriage return or newline. References to unknown macros are dropped and reported. -/
namespace DocGraph

structure Macros where
  table : Lookup.Table String := {}

/-- A text with its references replaced, and the names that were not known, in text order. -/
structure Expansion where
  text : String
  unknown : List String
  deriving DecidableEq, Repr

namespace Macros

def define (macros : Macros) (name value : String) : Macros × Nat :=
  let (table, index) := macros.table.add (Bytes.ofText name) value 0
  ({ table }, index)

def ofList (definitions : List (String × String)) : Macros :=
  definitions.foldl (fun macros (name, value) => (macros.define name value).1) {}

def value? (macros : Macros) (name : String) : Option String := do
  let item ← macros.table.find? (Bytes.ofText name)
  item.payload

def size (macros : Macros) : Nat := macros.table.size

def isEmpty (macros : Macros) : Bool := macros.table.isEmpty

def isSeparator (c : Char) : Bool := c == ' ' || c == '\t' || c == '\r' || c == '\n'

/-- Inserted values are not looked at again. -/
def expandChars (macros : Macros) : List Char → List Char × List String
  | [] => ([], [])
  | c :: rest =>
    if c = '$' then
      let name := String.ofList (rest.takeWhile (!isSeparator ·))
      have := (List.dropWhile_suffix (!isSeparator ·) : _ <:+ rest).length_le
      let (text, unknown) := expandChars macros (rest.dropWhile (!isSeparator ·))
      match macros.value? name with
      | some value => (value.toList ++ text, unknown)
      | none => (text, name :: unknown)
    else
      let (text, unknown) := expandChars macros rest
      (c :: text, unknown)
termination_by text => text.length
decreasing_by all_goals (simp only [List.length_cons]; omega)

def expand (macros : Macros) (text : String) : Expansion :=
  let (expanded, unknown) := macros.expandChars text.toList
  ⟨String.ofList expanded, unknown⟩

end Macros

end DocGraph
