import YamlIndex.CommandLine.Outcome
import YamlIndex.CommandLine.Usage
import YamlIndex.Volume.Changes

/-!
# The program

Loads what a request can look at from the file system into a volume, carries the request out,
prints what comes of it, and writes back the files that have changed.  All that is decided is
decided on the volume.
-/

namespace YamlIndex.CommandLine

/-- The variables that the program looks at. -/
def variableNames : List String :=
  ["YAMLNAV_CONFIG", "YAMLNAV_CACHE_TTL", "YAMLNAV_STRUCTURED"]

/-- The values of the variables that are set. -/
def readVariables : IO (List (String × String)) :=
  variableNames.filterMapM fun name => do
    return (← IO.getEnv name).map fun value => (name, value)

/-- Loads what stands at a location, with as many levels below it as are given. -/
def load (location : Location) (volume : Volume) : Nat → IO Volume
  | 0 => loadAt location volume fun _ volume => return volume
  | depth + 1 => loadAt location volume fun below volume => load below volume depth
where
  /-- What cannot be read is left out, and a directory that cannot be listed is locked. -/
  loadAt (location : Location) (volume : Volume) (loadBelow : Location → Volume → IO Volume) :
      IO Volume := do
    try
      let path ← IO.FS.realPath location.absolute
      if ← path.isDir then
        let made := volume.makeDirectory location
        try
          let names := (← path.readDir).toList.map fun entry => entry.fileName
          names.foldlM (fun volume name => loadBelow (location ++ [name]) volume) made
        catch _ => return { made with locked := location.text :: made.locked }
      else
        return volume.write location (.ofOctets (← IO.FS.readBinFile path).toList)
    catch _ => return volume

/-- Loads what a path passes, and what it leads to with as many levels below it as are given. -/
def loadPath (directory : Location) (path : String) (depth : Nat) (volume : Volume) :
    IO Volume := do
  let (start, names) := directory.route path
  let passed ← (Location.trail start names).foldlM (fun volume place => load place volume 0) volume
  load (names.foldl Location.step start) passed depth

/-- Writes a file back. -/
def save (file : Location × Contents) : IO Unit :=
  match file.2 with
  | .text s => IO.FS.writeFile file.1.absolute s
  | .binary octets => IO.FS.writeBinFile file.1.absolute ⟨octets.toArray⟩

/-- Asks for a new value in place of the present one. -/
def prompt (current : String) : IO (Option String) := do
  IO.eprint ("new value [" ++ current ++ "]: ")
  return answerOf (← (← IO.getStdin).getLine)

/-- Says why nothing more is done. -/
def complain (message : String) (code : UInt32) : IO UInt32 := do
  IO.eprintln message
  return code

/-- Carries out a request on what the file system holds. -/
def carryOut (request : Request) (lookup : String → Option String) : IO UInt32 := do
  let directory := Location.trail [] (Text.splitAll '/' (← IO.currentDir).toString.toList)
  let place : Place := { volume := {}, directory := directory.getLastD [], lookup }
  let early ← match request.config with
    | some path => loadPath place.directory path 0 place.volume
    | none => pure place.volume
  match { place with volume := early : Place }.settings request with
  | .error failure => complain failure.message 1
  | .ok settings =>
    let volume ←
      loadPath place.directory request.task.target (request.task.depth settings) early
    let place := { place with volume }
    let first := place.run request none
    let outcome ← match first.asked with
      | some current => do
        let answer ← prompt current
        pure (place.run request answer)
      | none => pure first
    IO.print outcome.output
    (volume.changes outcome.volume).forM save
    match outcome.failure with
    | some failure => complain failure.message 1
    | none => return 0

/-- Runs the command line. -/
def runArguments (arguments : List String) : IO UInt32 := do
  let environment ← readVariables
  let lookup := fun name => List.lookup name environment
  match Request.ofArguments (lookup "YAMLNAV_CONFIG") arguments with
  | .ok request => carryOut request lookup
  | .error refusal =>
    if refusal.isAnswer then
      IO.println refusal.message
      return 0
    else complain refusal.message 2

end YamlIndex.CommandLine

/-- Runs the command line. -/
def main (arguments : List String) : IO UInt32 :=
  YamlIndex.CommandLine.runArguments arguments
