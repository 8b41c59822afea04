import Primitives.CommandLine.Program
import Std.Time.Format

/-!
The command line: collects the surroundings of a run, shows its output and returns its code.
-/
namespace Primitives.CommandLine

/-- The words that a row of bytes gives, the least significant byte of each one first. -/
def wordsOfBytes : List UInt8 → List UInt32
  | a :: b :: c :: d :: rest =>
    (a.toUInt32 ||| (b.toUInt32 <<< 8) ||| (c.toUInt32 <<< 16) ||| (d.toUInt32 <<< 24)) :: wordsOfBytes rest
  | _ => []

/-- The time of day as the debug log shows it. -/
def clockText : IO String := do
  let now ← Std.Time.PlainDateTime.now
  return now.format "uuuu-MM-dd HH:mm:ss,SSS"

/-- The surroundings of this process. A run makes one context at most and reads one line at most. -/
def surroundings (words : List String) : IO Surroundings := do
  let key := wordsOfBytes (← IO.getRandomBytes 2496).toList
  let input ← if readsInput words then (← IO.getStdin).getLine else pure ""
  return {
    input
    seedVariable := ← IO.getEnv "PRIMLIB_SEED"
    noColor := ← IO.getEnv "NO_COLOR"
    terminal := ← (← IO.getStdout).isTty
    clock := ← clockText
    entropy := ⟨fun _ => key, 0⟩ }

end Primitives.CommandLine

open Primitives.CommandLine in
/-- Runs the program with the given words. A fault that nothing has caught ends it with the code 1. -/
def main (words : List String) : IO UInt32 := do
  let (finish, _) := run true (← surroundings words) words
  IO.print finish.output
  IO.eprint finish.errors
  match finish.ending with
  | .returned code => return code.toUInt32
  | .exited code => return code.toUInt32
  | .escaped fault =>
    IO.eprintln fault.text
    return 1
