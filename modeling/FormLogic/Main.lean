import FormLogic.CommandLine.Run

/-!
# FormLogic.Main

The program: it reads the files that its command line names, prints the output
of the run, and writes warnings and errors beside it.
-/

open FormLogic CommandLine

/-- Read a file, or say why it cannot be read. -/
def readText (path : String) : IO (Except String String) := do
  try
    let bytes ← IO.FS.readBinFile path
    match String.fromUTF8? bytes with
    | some text => return .ok text
    | none => return .error "stream did not contain valid UTF-8"
  catch e => return .error (toString e)

/-- The report of an error. -/
def errorReport (e : Error) : String :=
  let code := (e.code?.map (· ++ ": ")).getD ""
  let help := (e.help?.map ("\nhelp: " ++ ·)).getD ""
  code ++ e.message ++ help

def main (args : List String) : IO UInt32 := do
  let paths := match Command.ofArguments args with
    | .ok command => command.files
    | .error _ => []
  let texts ← paths.mapM fun path => return (path, ← readText path)
  let files : Files := fun path =>
    (Entries.get? texts path).getD (.error "no such file")
  let outcome := CommandLine.run files args
  IO.print outcome.output
  for warning in outcome.warnings do
    IO.eprintln warning
  if outcome.misused then IO.eprintln usageText
  if let some e := outcome.error then IO.eprintln (errorReport e)
  return outcome.exitCode.toUInt32
