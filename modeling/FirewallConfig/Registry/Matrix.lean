import FirewallConfig.Registry.Basic
import FirewallConfig.Toml.Reader

/-!
# Registry/Matrix — registries that are written as TOML documents

A document has a table for each vendor and one for each conversion.  Rows that name a vendor without
a dialect are left out, with a warning.  Of several rows for one vendor the first counts, of several
for one conversion the last.
-/

namespace FirewallConfig

/-- What a document says of a vendor. -/
structure VendorRow where
  id : String
  name : String
  description : String := ""
  extensions : List String := []
deriving DecidableEq, Repr

/-- What a document says of a conversion. -/
structure ConversionRow where
  source : String
  target : String
  cell : Cell := {}
deriving DecidableEq, Repr

/-- A row that was left out. -/
inductive MatrixWarning where
  | vendor (id : String)
  | conversion (source target : String)
deriving DecidableEq, Repr

namespace MatrixWarning

/-- Why the row was left out. -/
def message : MatrixWarning → String
  | .vendor _ => "ignoring vendor without a parser"
  | .conversion .. => "ignoring conversion with unknown vendor"

/-- What the row said, under the names of its columns. -/
def details : MatrixWarning → List (String × String)
  | .vendor id => [("vendor", id)]
  | .conversion source target => [("source", source), ("target", target)]

end MatrixWarning

/-! ## From rows to a registry -/

namespace VendorRow

/-- The vendor of a row, if its id names a dialect. -/
def vendor? (row : VendorRow) : Option Vendor :=
  (Dialect.ofId? row.id).map fun dialect => { row with dialect }

/-- The warning of a row that is left out. -/
def warning? (row : VendorRow) : Option MatrixWarning :=
  if (Dialect.ofId? row.id).isSome then none else some (.vendor row.id)

end VendorRow

namespace ConversionRow

/-- The pair of a row, if both of its ids name dialects. -/
def pair? (row : ConversionRow) : Option (Dialect × Dialect) :=
  match Dialect.ofId? row.source, Dialect.ofId? row.target with
  | some source, some target => some (source, target)
  | _, _ => none

/-- The warning of a row that is left out. -/
def warning? (row : ConversionRow) : Option MatrixWarning :=
  if row.pair?.isSome then none else some (.conversion row.source row.target)

end ConversionRow

namespace Registry

/-- Lists a vendor, unless there is one of its dialect. -/
def enlist (vendors : List Vendor) (v : Vendor) : List Vendor :=
  if vendors.any (·.dialect == v.dialect) then vendors else vendors ++ [v]

/-- The vendors of some rows. -/
def listed (rows : List VendorRow) : List Vendor :=
  (rows.filterMap VendorRow.vendor?).foldl enlist []

/-- The registry of some rows.  Where they leave no vendor, the known ones are listed. -/
def ofRows (vendorRows : List VendorRow) (conversionRows : List ConversionRow) : Registry where
  vendors := if (listed vendorRows).isEmpty then knownVendors else listed vendorRows
  cell? source target :=
    (conversionRows.reverse.find? (·.pair? == some (source, target))).map (·.cell)

/-- The rows that are left out, in order. -/
def warnings (vendorRows : List VendorRow) (conversionRows : List ConversionRow) :
    List MatrixWarning :=
  vendorRows.filterMap VendorRow.warning? ++ conversionRows.filterMap ConversionRow.warning?

end Registry

/-! ## From a document to rows -/

namespace Toml.Value

/-- The text, if it is one. -/
def text? : Value → Option String
  | .text s => some s
  | _ => none

/-- The truth value, if it is one. -/
def truth? : Value → Option Bool
  | .truth b => some b
  | _ => none

/-- The items of a list, or the tables of some rows. -/
def items? : Value → Option (List Value)
  | .list items => some items
  | .rows tables => some (tables.map (.table .header))
  | _ => none

/-- The value is a table or a list, and holds nothing. -/
def isHollow : Value → Bool
  | .table _ [] | .list [] => true
  | _ => false

/-- A level: its name, or a table whose only key it is, with a hollow value. -/
def complexity? : Value → Option Complexity
  | .text s => Complexity.ofText? s
  | .table _ [(s, v)] => if v.isHollow then Complexity.ofText? s else none
  | _ => none

/-- The texts of a list. -/
def texts? (v : Value) : Option (List String) := v.items?.bind fun items => items.mapM text?

/-- The value of a column: a table has it under its name, a list at its position. -/
def column? (v : Value) (name : String) (position : Nat) : Option Value :=
  match v with
  | .table _ fields => field? fields name
  | .list items => items[position]?
  | _ => none

/-- Reads a column that a row must have. -/
def required? (v : Value) (name : String) (position : Nat) (read : Value → Option α) : Option α :=
  (v.column? name position).bind read

/-- Reads a column that a row may leave out. -/
def optional? (v : Value) (name : String) (position : Nat) (read : Value → Option α)
    (otherwise : α) : Option α :=
  match v.column? name position with
  | some w => read w
  | none => some otherwise

end Toml.Value

open Toml (Value)

/-- Reads the row of a vendor. -/
def VendorRow.ofValue? (v : Value) : Option VendorRow := do
  let id ← v.required? "id" 0 Value.text?
  let name ← v.required? "name" 1 Value.text?
  let description ← v.optional? "description" 2 Value.text? ""
  let extensions ← v.optional? "extensions" 3 Value.texts? []
  return { id, name, description, extensions }

/-- Reads the row of a conversion. -/
def ConversionRow.ofValue? (v : Value) : Option ConversionRow := do
  let source ← v.required? "source" 0 Value.text?
  let target ← v.required? "target" 1 Value.text?
  let supported ← v.optional? "supported" 2 Value.truth? true
  let complexity ← v.optional? "complexity" 3 Value.complexity? .medium
  return { source, target, cell := { supported, complexity } }

/-- Reads the rows under a key; a document without the key has none. -/
def readRows (fields : Toml.Fields) (key : String) (read : Value → Option α) : Option (List α) :=
  match Toml.field? fields key with
  | some v => v.items?.bind fun items => items.mapM read
  | none => some []

/-- A registry that was read, and the rows that were left out. -/
structure Matrix where
  registry : Registry
  warnings : List MatrixWarning

/-- Reads a registry; `none` if the text is no TOML document or its rows have other columns. -/
def Matrix.read (s : String) : Option Matrix := do
  let fields ← Toml.read s
  let vendorRows ← readRows fields "vendor" VendorRow.ofValue?
  let conversionRows ← readRows fields "conversion" ConversionRow.ofValue?
  return { registry := .ofRows vendorRows conversionRows
           warnings := Registry.warnings vendorRows conversionRows }

end FirewallConfig
