import TreeWatch.CommandLine.Run
import TreeWatch.Tree.EditScript

/-!
The command as a program. The files to watch are described on the standard input: the first batch
of edits makes the tree in which the command runs, and the command looks at the tree once more
after each of the others.
-/

open TreeWatch

/-- The lines of a stream, without their ends. -/
partial def readLines (stream : IO.FS.Stream) (lines : Array String) : IO (Array String) := do
  let line ← stream.getLine
  if line.isEmpty then return lines
  readLines stream (lines.push (String.ofList (line.toList.filter (· != '\n'))))

def main (words : List String) : IO UInt32 := do
  let wantsTree := (CommandLine.Arguments.ofWords words).isOk
  let lines ← if wantsTree then readLines (← IO.getStdin) #[] else pure #[]
  let batches := Edit.batches [] lines.toList
  let top := (Node.emptyDirectory 0).edited 0 (batches.head?.getD [])
  match CommandLine.run ⟨top, ".", []⟩ words 1 batches.tail with
  | .ok output =>
      (← IO.getStdout).putStr output.stdout
      (← IO.getStderr).putStr (output.stderr ++ String.join (output.log.map (· ++ "\n")))
      return output.status.toUInt32
  | .error breakdown =>
      (← IO.getStderr).putStr (breakdown.message ++ "\n")
      return 1
