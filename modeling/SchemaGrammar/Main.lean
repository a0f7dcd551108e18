import SchemaGrammar.Cli.Run

set_option autoImplicit false

/-! # The program

Reads the files that the command line names, runs the command and writes what it reports. -/

namespace SchemaGrammar.Cli

/-- What lies at a path of the file system. -/
def readEntry (path : Path) : IO Entry := do
  try
    let place ← IO.FS.realPath path.text
    if ← place.isDir then return .folder
    else return .file (← IO.FS.readFile place)
  catch _ => return .missing

def writeSave (save : Save) : IO Unit := do
  IO.FS.createDirAll save.path.parent.text
  IO.FS.writeFile save.path.text save.text

end SchemaGrammar.Cli

open SchemaGrammar.Cli

def main (words : List String) : IO UInt32 := do
  let entries ← (pathsOf words).mapM fun path => return (path, ← readEntry path)
  let disk : Disk := fun path => (entries.lookup path).getD .missing
  let start ← IO.monoNanosNow
  let report ← IO.lazyPure fun _ => run disk words
  let tenths := ((← IO.monoNanosNow) - start) / 100000
  match report.output.save? with
  | some save => writeSave save
  | none => pure ()
  (← IO.getStderr).putStr (renderBlocks tenths report.output.stderr)
  (← IO.getStdout).putStr (renderBlocks tenths report.output.stdout)
  return report.exit.code.toUInt32
