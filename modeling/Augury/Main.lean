import Augury.Command.Run
import Std.Time.DateTime.Timestamp

/-!
# The program

The command line with the real files, clock and standard streams.
-/

set_option autoImplicit false

/-- The files and the clock of the machine.  The clock shows the nanoseconds since the start of the year
1970, modulo 2^64, and zero when it is set to an earlier time. -/
def Augury.Command.machine : Environment IO where
  file name := do
    try
      return .ok (← IO.FS.readBinFile name)
    catch
      | .noFileOrDirectory .. => return .error .missing
      | .inappropriateType .. => return .error .directory
      | error => return .error (.other (toString error))
  clock := do
    let time ← Std.Time.Timestamp.now
    return UInt64.ofNat time.toNanosecondsSinceUnixEpoch.toInt.toNat

/-- Runs the program with the arguments it was started with. -/
def main (arguments : List String) : IO UInt32 := do
  let outcome ← Augury.Command.run Augury.Command.machine arguments
  (← IO.getStdout).putStr outcome.stdout
  (← IO.getStderr).putStr outcome.stderr
  return outcome.code
