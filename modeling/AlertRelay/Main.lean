import AlertRelay.Replay.Run

/-! The program: it replays recorded monitoring results and prints the alerts
that they yield, one on a line. -/

namespace AlertRelay

def canOpen (path : String) : IO Bool := do
  try
    let _ ← IO.FS.Handle.mk path .read
    return true
  catch _ => return false

/-- What a path leads to; what can be opened but not read is a directory. -/
def fileContent (path : String) : IO (Except FileFault ByteArray) := do
  try return .ok (← IO.FS.readBinFile path)
  catch _ => return .error (if ← canOpen path then .directory else .absent)

def readFiles (paths : List String) : IO (Table (Except FileFault ByteArray)) :=
  paths.mapM fun path => do return (path, ← fileContent path)

/-- All that is left in a stream. -/
partial def streamContent (stream : IO.FS.Stream) (read : ByteArray) : IO ByteArray := do
  let bytes ← stream.read 65536
  if bytes.isEmpty then return read
  streamContent stream (read ++ bytes)

/-- The files and the variable that the arguments may refer to. Standard input
is read only if it is asked for and the relay can start. Memory is given out as it is
used, so the allocator is taken to refuse nothing. -/
def surroundings (arguments : List String) : IO Surroundings := do
  let command := CommandLine.ofArguments arguments
  let names := ((← IO.currentDir).toString.splitOn "/").filter (· ≠ "")
  let files ← readFiles (assignmentPlaces names.reverse ++ command.paths)
  let value ← IO.getEnv capacityVariable
  let w : Surroundings := {
    arguments := arguments
    directory := names.reverse
    files := files
    standardInput := .empty
    environment := value.toList.map fun s => (capacityVariable, s)
    grants := fun _ => true }
  match command with
  | .run ⟨settings, none, verbose⟩ =>
    match w.start ⟨settings, none, verbose⟩ with
    | .ok _ => return { w with standardInput := ← streamContent (← IO.getStdin) .empty }
    | .error _ => return w
  | _ => return w

/-- Prints an error and what lies behind it. -/
def reportError (e : ReplayError) : IO Unit := do
  IO.eprintln ("Error: " ++ e.message)
  match e.cause with
  | some cause => IO.eprintln ("\nCaused by:\n    " ++ cause)
  | none => return

end AlertRelay

def main (arguments : List String) : IO UInt32 := do
  let result := (← AlertRelay.surroundings arguments).replay
  let output ← IO.getStdout
  output.write (AlertRelay.frameLines result.output)
  output.flush
  result.error.forM AlertRelay.reportError
  return result.status.toUInt32
