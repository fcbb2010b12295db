import Collate.Command.Errand

/-
  The program: requests from the command line, carried out on
  the disk.

  Key definitions include:
    * `Disk.run`
    * `Disk.carryOut`
    * `main`
-/

------------------------------------------------------------
-- Files on the Disk
------------------------------------------------------------

namespace Collate

namespace Disk

/- The fault behind an error of the system. -/
def faultOf : IO.Error → FileFault
  | .noFileOrDirectory .. => .noEntry
  | .resourceBusy .. => .busy
  | .inappropriateType _ code _ =>
      if code = 21 then .isDirectory else .notDirectory
  | .invalidArgument _ code details =>
      if code = 36 then .nameTooLong
      else .other details.toList
  | error => .other error.toString.toList

/- Do something on the disk, and keep the fault. -/
def attempt
    {α : Type}
    (action : IO α) : IO (Except FileFault α) := do
  try
    let result ← action
    return .ok result
  catch error => return .error (faultOf error)

/- The text in some octets. -/
def decode
    (content : ByteArray) : Except FileFault Text :=
  match Utf8.decode? content.toList with
  | some text => .ok text
  | none => .error .notUtf8

/- Read a text. -/
def readText
    (path : Path) : IO (Except FileFault Text) := do
  match FileTree.pathFault? path with
  | some fault => return .error fault
  | none =>
      let got ← attempt (IO.FS.readBinFile (String.ofList path))
      return got.bind decode

/- A name for a file that is soon renamed. -/
def passingName : IO Text := do
  let now ← IO.monoNanosNow
  return ".tmp".toList ++ Text.ofNat now

/-
  Write a text to a new file in the directory of a path, and
  rename the file, so that a reader never sees half a text.
-/
def writeText
    (path : Path)
    (text : Text) : IO (Except FileFault Unit) := do
  match
    FileTree.pathFault? (Path.directory path) <|>
      FileTree.targetFault? path
  with
  | some fault => return .error fault
  | none =>
      let name ← passingName
      let passing :=
        String.ofList (Path.join (Path.directory path) name)
      let content := ByteArray.mk (Utf8.encode text).toArray
      let made ← attempt (IO.FS.writeBinFile passing content)
      match made with
      | .error fault => return .error fault
      | .ok () =>
          let moved ←
            attempt (IO.FS.rename passing (String.ofList path))
          match moved with
          | .ok () => return .ok ()
          | .error fault =>
              let _ ← attempt (IO.FS.removeFile passing)
              return .error fault

/- Carry out a job on the disk. -/
def run
    {α : Type} : FileJob α → IO α
  | .done result => return result
  | .read path next => do
      let got ← readText path
      run (next got)
  | .write path text next => do
      let went ← writeText path text
      run (next went)

------------------------------------------------------------
-- Errands
------------------------------------------------------------

/- Read a stream to its end, behind what is read already. -/
partial def readStream
    (stream : IO.FS.Stream)
    (before : ByteArray) : IO ByteArray := do
  let chunk ← stream.read 65536
  if chunk.isEmpty then return before
  else readStream stream (before ++ chunk)

/- Read the standard input. -/
def readInput : IO (Except FileFault Text) := do
  let stream ← IO.getStdin
  let got ← attempt (readStream stream .empty)
  return got.bind decode

/-
  Do what an errand needs.  No other program is started from
  here, so the coverage tool counts as absent.
-/
def carryOut : Errand → IO Finish
  | .files job => run job
  | .input next => do
      let got ← readInput
      return next got
  | .tool _ next => return next (.error .noEntry)

/- Print what a run has to say. -/
def print
    (finish : Finish) : IO Unit := do
  let output ← IO.getStdout
  output.putStr (String.ofList finish.output)
  output.flush
  let errors ← IO.getStderr
  errors.putStr (String.ofList finish.errors)
  errors.flush

end Disk

end Collate

/- Do what the command line asks for. -/
def main
    (arguments : List String) : IO UInt32 := do
  let words := arguments.map String.toList
  let errand := (Collate.Request.ofWords words).errand
  let finish ← Collate.Disk.carryOut errand
  Collate.Disk.print finish
  return finish.exitCode.toUInt32
