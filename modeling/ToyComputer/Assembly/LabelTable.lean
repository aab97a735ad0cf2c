import ToyComputer.Assembly.Error

/-!
Label tables: which address each label names.
-/

namespace ToyComputer

/-- The definitions, the latest first. No label has two. -/
structure LabelTable where
  entries : List (String × Word) := []
  distinct : (entries.map Prod.fst).Nodup := by exact List.nodup_nil
  deriving DecidableEq, Repr

namespace LabelTable

def empty : LabelTable := {}

def lookup (table : LabelTable) (label : String) : Option Word := table.entries.lookup label

def names (table : LabelTable) : List String := table.entries.map Prod.fst

def define (table : LabelTable) (label : String) (address : Word) : Except SourceError LabelTable :=
  if defined : label ∈ table.names then .error (.labelRedefined label)
  else .ok ⟨(label, address) :: table.entries, List.nodup_cons.mpr ⟨defined, table.distinct⟩⟩

def size (table : LabelTable) : Nat := table.entries.length

def isEmpty (table : LabelTable) : Bool := table.entries.isEmpty

def byName (table : LabelTable) : List (String × Word) :=
  table.entries.mergeSort fun a b => decide (a.1 ≤ b.1)

def precedes (a b : String × Word) : Bool := a.2 < b.2 || (a.2 == b.2 && decide (a.1 ≤ b.1))

def byAddress (table : LabelTable) : List (String × Word) := table.entries.mergeSort precedes

end LabelTable

end ToyComputer
