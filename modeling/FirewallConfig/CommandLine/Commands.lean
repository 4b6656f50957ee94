import FirewallConfig.CommandLine.Arguments
import FirewallConfig.CommandLine.Script
import FirewallConfig.Registry.Matrix
import FirewallConfig.Report.Catalogue
import FirewallConfig.Report.Listing
import FirewallConfig.Report.Outcome

/-!
# CommandLine/Commands — the scripts of the commands

Nothing is written before the conversion has succeeded, and only to a place that the input does not
stand at.  Texts are printed without colours.
-/

namespace FirewallConfig

/-- Goes on with the registry of a file, or with the one that is built in. -/
def Script.withRegistry (path? : Option String) (next : Registry → Script) : Script :=
  match path? with
  | none => next .builtin
  | some path =>
    .read path fun
      | .error e =>
        .fail s!"failed to load matrix file {path}"
          [s!"failed to read conversion matrix {path}: {e.message}", e.message]
      | .ok text =>
        match Matrix.read text with
        | none =>
          .fail s!"failed to load matrix file {path}"
            [s!"failed to parse conversion matrix {path}: TOML parse error", "TOML parse error"]
        | some m =>
          m.warnings.foldr (fun w next => .warn w.message w.details next) (next m.registry)

/-- Goes on with the dialect of an id and what a text of it holds. -/
def Script.withConfig (input source : String) (next : Dialect → Config → Script) : Script :=
  .withText input fun text =>
    match Registry.builtin.vendor? source with
    | some v => next v.dialect (v.dialect.read text)
    | none => .fail (Dialect.unknownMessage source) []

namespace ConvertCommand

/-- Refuses to write where the input stands. -/
def guarded (c : ConvertCommand) (next : Script) : Script :=
  match c.output? with
  | none => next
  | some output =>
    .locate output fun outputPlace =>
      .locate c.input fun inputPlace =>
        if outputPlace = inputPlace then
          .fail (s!"refusing to overwrite source file: output {output}" ++
            s!" matches input {c.input}") []
        else next

/-- Files of the vendor are not called like the input. -/
def isUnusual (v : Vendor) (input : String) : Bool :=
  !v.extensions.isEmpty &&
    !(Path.extension? input).any fun e => v.extensions.any (Text.sameIgnoringCase ("." ++ e))

/-- Warns of an input that is not called like the files of its vendor. -/
def warned (c : ConvertCommand) (r : Registry) (next : Script) : Script :=
  match r.vendor? c.source with
  | some v =>
    if isUnusual v c.input then
      .warn s!"input extension is unusual for {v.name}"
        [("file", c.input), ("expected", v.extensionList)] next
    else next
  | none => next

/-- Hands a result over: to the output file if there is one, else to the output. -/
def delivered (c : ConvertCommand) (result : Conversion) : Script :=
  let summary := result.summary false
  match c.output?, c.format with
  | some path, format =>
    .write path result.output fun
      | some e => .fail s!"failed to write output {path}" [e.message]
      | none =>
        match format with
        | .text => .printLine summary (.printLine s!"output={path}" (.finish .success))
        | .json => .finish .success
  | none, .text => .print result.output (.remark (summary ++ "\n") (.finish .success))
  | none, .json => .finish .success

/-- Prints the report on a conversion, if it is asked for. -/
def reported (c : ConvertCommand) (result : Except ConversionFailure Conversion) (next : Script) :
    Script :=
  match c.format with
  | .text => next
  | .json => .printLine (Report.outcome result).pretty next

/-- The output is guarded first, so that the input is safe whatever comes after; the result is
handed over last. -/
def script (c : ConvertCommand) : Script :=
  c.guarded <|
    .withRegistry c.matrix? fun r =>
      .withText c.input fun text =>
        c.warned r <|
          let result := r.convert c.strict c.source c.target text
          c.reported result <|
            match result with
            | .ok conversion => c.delivered conversion
            | .error f => .fail ("convert failed: " ++ f.error.message) []

end ConvertCommand

/-- Prints the vendors of the registry. -/
def VendorsCommand.script (c : VendorsCommand) : Script :=
  .withRegistry c.matrix? fun r =>
    .printLine (match c.format with
      | .text => Report.vendors false r.vendors
      | .json => (Json.arr (r.vendors.map Vendor.toJson)).pretty) (.finish .success)

/-- Prints the targets of a vendor, which must be listed. -/
def TargetsCommand.script (c : TargetsCommand) : Script :=
  .withRegistry c.matrix? fun r =>
    if (r.vendor? c.source).isNone then .fail (Dialect.unknownMessage c.source) []
    else
      let targets := r.targets c.source
      .printLine (match c.format with
        | .text => Report.targets false c.source targets
        | .json => (Json.arr (targets.map Target.toJson)).pretty) (.finish .success)

/-- Prints what a file holds. -/
def InspectCommand.script (c : InspectCommand) : Script :=
  .withConfig c.input c.source fun d config =>
    .printLine (match c.format with
      | .text => Report.inspection false d.id config
      | .json => config.toJson.pretty) (.finish .success)

/-- Errors make a check fail, and warnings too if it is strict. -/
def CheckCommand.verdict (c : CheckCommand) (findings : List Finding) : Script :=
  if errorCount findings > 0 then .fail s!"check failed: {errorCount findings} errors" []
  else if c.strict && warningCount findings > 0 then
    .fail s!"check failed in strict mode: {warningCount findings} warnings" []
  else .finish .success

/-- Prints the findings, and then judges them. -/
def CheckCommand.script (c : CheckCommand) : Script :=
  .withConfig c.input c.source fun d config =>
    .printLine (match c.format with
      | .text => Report.findings false d.id config.findings
      | .json => (Report.findingsJson config.findings).pretty) (c.verdict config.findings)

namespace Command

/-- The script of a command. -/
def script : Command → Script
  | .convert c => c.script
  | .vendors c => c.script
  | .targets c => c.script
  | .inspect c => c.script
  | .check c => c.script

/-- What the program does with its arguments. -/
def scriptOf (args : List String) : Script :=
  match ofArguments? args with
  | some c => c.script
  | none => .finish .usage

end Command

end FirewallConfig
