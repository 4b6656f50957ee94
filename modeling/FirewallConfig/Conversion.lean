import FirewallConfig.Reader
import FirewallConfig.References
import FirewallConfig.Registry.Basic
import FirewallConfig.Writer

/-!
# Conversion — from a text in one dialect to a text in another

Both vendors must be listed and their pair supported; then a text can always be converted, unless
references are checked strictly and a group refers to what is not declared.
-/

namespace FirewallConfig

/-- Why a text was not converted. -/
inductive ConversionError where
  /-- No vendor has the id. -/
  | unknownVendor (id : String)
  | unsupported (source target : Dialect)
  /-- Members of address groups that refer to nothing: how many, and the first one. -/
  | unresolved (count : Nat) (first : Finding)
deriving DecidableEq, Repr

/-- What is said of the error. -/
def ConversionError.message : ConversionError → String
  | .unknownVendor id => Dialect.unknownMessage id
  | .unsupported source target =>
    s!"conversion from {source.id} to {target.id} is not supported"
  | .unresolved count first =>
    s!"{count} unresolved address group reference(s), first: {first.message}"

/-- A conversion that failed, with the names of the vendors that were found. -/
structure ConversionFailure where
  error : ConversionError
  source? : Option String
  target? : Option String
deriving DecidableEq, Repr

/-- A text that was converted. -/
structure Conversion where
  source : Vendor
  target : Vendor
  complexity : Complexity
  /-- What the text holds. -/
  config : Config
  output : String

/-- Fails if references are checked strictly and a group refers to what is not declared. -/
def Config.checkGroups (c : Config) (strict : Bool) : Except ConversionError Unit :=
  match strict, c.groupFindings with
  | true, first :: rest => .error (.unresolved (rest.length + 1) first)
  | _, _ => .ok ()

namespace Registry

/-- The vendor with an id, or the failure to find it. -/
def findVendor (r : Registry) (id : String) : Except ConversionError Vendor :=
  match r.vendor? id with
  | some v => .ok v
  | none => .error (.unknownVendor id)

/-- The complexity of a conversion, or the failure to support it. -/
def findConversion (r : Registry) (source target : Dialect) : Except ConversionError Complexity :=
  match r.conversion? source target with
  | some complexity => .ok complexity
  | none => .error (.unsupported source target)

/-- Converts a text from the dialect of one vendor to that of another, both given by id. -/
def tryConvert (r : Registry) (strict : Bool) (source target text : String) :
    Except ConversionError Conversion := do
  let source ← r.findVendor source
  let target ← r.findVendor target
  let complexity ← r.findConversion source.dialect target.dialect
  let config := source.dialect.read text
  config.checkGroups strict
  return { source, target, complexity, config
           output := target.dialect.write source.dialect config }

/-- Converts a text; a failure tells which vendors were found. -/
def convert (r : Registry) (strict : Bool) (source target text : String) :
    Except ConversionFailure Conversion :=
  (r.tryConvert strict source target text).mapError fun error =>
    { error
      source? := (r.vendor? source).map (·.name)
      target? := (r.vendor? target).map (·.name) }

end Registry

end FirewallConfig
