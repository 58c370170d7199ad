import NamespaceControl.CommandLine

/-!
# The program

The command line, with files, standard input and standard output. All that is decided is decided
elsewhere: here bytes are read and written.
-/

namespace NamespaceControl

/-- The bytes of a file, if it can be read. -/
def readFile? (path : String) : IO (Option (List UInt8)) := do
  try
    let bytes ← IO.FS.readBinFile path
    return some bytes.data.toList
  catch _ => return none

/-- The next line of the input without its line feed, after the bytes of it that were read
already; nothing at the end of the input. -/
partial def nextLine? (input : IO.FS.Stream) (begun : List UInt8) : IO (Option (List UInt8)) := do
  match (← input.read 1).data.toList with
  | [] => return if begun.isEmpty then none else some begun.reverse
  | byte :: _ =>
    if byte = 10 then return some begun.reverse
    else nextLine? input (byte :: begun)

/-- Write bytes at once. -/
def emit (output : IO.FS.Stream) (sink : Bool × Sink) : IO Unit := do
  output.write ⟨sink.2.written.toArray⟩
  output.flush

/-- Run a console until the input ends or a line ends the run. -/
partial def interact (console : Console) (input output : IO.FS.Stream) (store : Store)
    (session : Session) : IO Ending := do
  emit output (console.writePrompt session .unlimited)
  match ← nextLine? input [] with
  | none => return .done
  | some bytes =>
    let r := Console.reply console.format store session bytes
    emit output (Console.writeAnswer .unlimited r.output)
    match r.ending with
    | some ending => return ending
    | none => interact console input output r.store r.session

end NamespaceControl

open NamespaceControl in
/-- Start the program, run its console and give the exit code. -/
def main (args : List String) : IO UInt32 := do
  match Options.parse? args with
  | none =>
    (← IO.getStderr).putStrLn "error: invalid arguments"
    return exitUsage.toUInt32
  | some o =>
    let names := [Config.logLevelVariable, Config.promptVariable, logVariable]
    let values ← names.mapM fun name => do return (name, ← IO.getEnv name)
    let content ← match o.config with
      | some path => readFile? path
      | none => pure none
    let around : Surroundings := ⟨fun name => (values.lookup name).join, fun _ => content⟩
    match o.start around with
    | .error fault =>
      (← IO.getStderr).putStrLn "error: cannot start"
      return fault.exitCode.toUInt32
    | .ok started =>
      let ending ← interact started.console (← IO.getStdin) (← IO.getStdout)
        started.plane.namespaces started.session
      return ending.exitCode.toUInt32
