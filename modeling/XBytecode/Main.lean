import XBytecode.CommandLine

/-!
# The program

Reads the files that the arguments name and the input, as far as it is asked for, and prints what
`CommandLine` answers. A request is answered for the input typed so far; when that is too short,
the new part of the answer is shown and another line is read.
-/

namespace XBytecode.CommandLine

/-- A number of steps that no execution takes, `2^62`. -/
def unbounded : Nat :=
  0x4000000000000000

/-- Reads a file. The wrong kind of file is the file itself, a directory with code 21, or one on
the way to it. -/
def readFile (name : String) : IO (Except FileError ByteArray) := do
  match ← (IO.FS.readBinFile name).toBaseIO with
  | .ok contents => return .ok contents
  | .error (.noFileOrDirectory ..) => return .error .missing
  | .error (.inappropriateType _ code _) =>
    return .error (if code == 21 then .directory else .notDirectory)
  | .error e => return .error (.other (toString e))

/-- Reads the files of a request. -/
def readFiles (request : Request) : IO Files := do
  let contents ← request.files.mapM fun name => return (name, ← readFile name)
  return fun name => (contents.lookup name).getD (.error .missing)

/-- Reads the rest of a line, its line feed included. -/
partial def readLine (stream : IO.FS.Stream) (line : Array UInt8) : IO (List UInt8) := do
  let bytes ← stream.read 1
  match bytes.toList with
  | [] => return line.toList
  | byte :: _ =>
    if byte == 10 then return (line.push byte).toList
    else readLine stream (line.push byte)

/-- Prints a text of which the first `shown` characters have been printed. -/
def printFrom (shown : Nat) (text : String) : IO Unit := do
  let stdout ← IO.getStdout
  stdout.putStr (String.ofList (text.toList.drop shown))
  stdout.flush

/-- Prints the report on a request, of whose output the first `shown` characters have been
printed. -/
def printReport (report : Report) (shown : Nat) : IO UInt32 := do
  printFrom shown report.out
  IO.eprint report.err
  return report.code

/-- Answers a request for the input typed so far, of whose output the first `shown` characters have
been printed. -/
partial def answer (request : Request) (files : Files) (input : List UInt8) (shown : Nat) :
    IO UInt32 := do
  match request.awaits? files input unbounded with
  | none => printReport (request.report files input unbounded) shown
  | some text =>
    printFrom shown text
    match ← readLine (← IO.getStdin) #[] with
    | [] => printReport (request.report files input unbounded) text.length
    | line => answer request files (input ++ line) text.length

end XBytecode.CommandLine

open XBytecode.CommandLine in
/-- The command line. -/
def main (args : List String) : IO UInt32 := do
  let request := Request.ofArgs args
  answer request (← readFiles request) [] 0
