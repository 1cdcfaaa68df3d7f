import MockGraph.Report
import MockGraph.Server.Host
set_option autoImplicit false

namespace MockGraph.Main

open MockGraph.Server (Config CommandLine.parse)

/-- The text of a file, unless it cannot be read. -/
def fileText (path : String) : IO (Option String) := do
  try return some (← IO.FS.readFile path)
  catch _ => return none

/-- The files that a configuration names, with their texts. -/
def readFiles (config : Config) : IO (List (String × String)) := do
  let paths := config.schemaFile.toList ++ config.mocksFile.toList
  let texts ← paths.mapM fun path => return (← fileText path).map (path, ·)
  return texts.filterMap id

/-- The answer to a line, and the host after it. -/
def answer {σ : Type} (host : Host σ) (line : String) : String × Host σ :=
  match Request.read line with
  | .error _ => ((Json.report "Malformed" none).text, host)
  | .ok request =>
    let (submission, host) := host.submit request
    match host.collect? submission with
    | some (.ok response, host) => (response.text, host)
    | some (.error error, host) => (error.report.text, host)
    | none => ((Json.report "Pending" none).text, host)

partial def serve {σ : Type} (host : Host σ) (input output : IO.FS.Stream) : IO (Host σ) := do
  let line ← input.getLine
  if line.isEmpty then return host
  let (text, host) := answer host line
  output.putStrLn text
  output.flush
  serve host input output

/-- Serves the input until it ends. Without a seed the mock values differ from run to run. -/
def start (config : Config) : IO UInt32 := do
  let files ← readFiles config
  match config.build fun path => files.lookup path with
  | .error error =>
    IO.eprintln error.message
    return 1
  | .ok built =>
    let seed ← match built.seed with
      | some seed => pure seed
      | none => IO.rand 0 (Nat.pow 2 64 - 1)
    let host := Host.start config built.engine ⟨.ofSeed seed, .empty, .new⟩
    let host ← serve host (← IO.getStdin) (← IO.getStdout)
    if let some (report, _) := host.drain then
      if report.timedOut then IO.eprintln "operations were still running"
    return 0

end MockGraph.Main

def main (arguments : List String) : IO UInt32 :=
  match MockGraph.Server.CommandLine.parse arguments with
  | .ok config => MockGraph.Main.start config
  | .error usage => do
    IO.eprintln usage.report.text
    return if usage = .help ∨ usage = .version then 0 else 2
