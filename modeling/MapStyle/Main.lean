import MapStyle.Session.Arguments
import MapStyle.Session.Run

/-!
# The command line

The command line: reads what the arguments name, runs a session and writes its texts into a
directory.
-/

namespace MapStyle.CommandLine

open Session

/-- The text of a file, if it can be read. -/
def inputFile (path : String) : IO InputFile := do
  let text ← try some <$> IO.FS.readFile path catch _ => pure none
  return { path, text }

/-- The entries of a directory with the content of its files, if it can be listed. -/
def inputDirectory (path : String) : IO InputDirectory := do
  let entries ← try
    let listed ← ((← IO.currentDir) / path).readDir
    let entries ← listed.toList.mapM fun entry => do
      let content ← try some <$> IO.FS.readBinFile entry.path catch _ => pure none
      return { name := entry.fileName, content : DirectoryEntry }
    pure (some entries)
  catch _ => pure none
  return { path, entries }

def environment : IO Overrides := do
  return {
    tileUrl := ← IO.getEnv "LASOGRAPHER_TILE_URL"
    glyphs := ← IO.getEnv "LASOGRAPHER_GLYPHS"
    sprite := ← IO.getEnv "LASOGRAPHER_SPRITE" }

/-- What a session is given by the arguments, the files and the environment. -/
def request (a : Arguments) : IO Request := do
  return {
    config := ← a.config.mapM inputFile
    style := ← a.style.mapM inputFile
    features := ← a.features.mapM inputFile
    icons := ← a.icons.mapM inputDirectory
    saved := a.saved
    overrides := ← environment }

/-- Writes the texts of a session into a directory, which is made if it does not exist. -/
def writeOutcome (directory : String) (o : Outcome) : IO Unit := do
  IO.FS.createDirAll directory
  let files := [("definition.json", o.definition), ("style.json", o.style),
    (o.drawing.fileName, o.drawing.contents)]
  for (name, contents) in files do
    IO.FS.writeFile (directory ++ "/" ++ name) contents

def usage : String :=
  "usage: map-style [-s STYLE] [-f FEATURES] [-i ICONS] [-c CONFIG] [--save-poi ID]... " ++
    "[-o OUT] [-v]"

/-- Runs the program; the result is its exit code. -/
def runProgram (arguments : List String) : IO UInt32 := do
  match Arguments.ofList? arguments with
  | none =>
    IO.eprintln usage
    return 2
  | some a =>
    match run? (← request a) with
    | none => return 1 -- a session that never ends does not get here
    | some (.error failure) =>
      IO.eprintln failure.report
      return 1
    | some (.ok outcome) =>
      for d in outcome.diagnostics do
        IO.eprintln ("warning: " ++ d.message)
      writeOutcome a.outDirectory outcome
      if a.verbose then IO.eprintln ("wrote " ++ a.outDirectory)
      return 0

end MapStyle.CommandLine

def main (arguments : List String) : IO UInt32 :=
  MapStyle.CommandLine.runProgram arguments
