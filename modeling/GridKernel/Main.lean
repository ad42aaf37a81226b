import GridKernel.Command.Report

namespace GridKernel

-- A time with two decimals in the largest unit of which it holds at least one.
def durationText (nanoseconds : Nat) : String :=
  let inUnit (size : Nat) (unit : String) : String :=
    Decimal.pointed ((nanoseconds * 100 + size / 2) / size) 2 ++ unit
  if 1000000000 ≤ nanoseconds then inUnit 1000000000 "s"
  else if 1000000 ≤ nanoseconds then inUnit 1000000 "ms"
  else if 1000 ≤ nanoseconds then inUnit 1000 "µs"
  else inUnit 1 "ns"

-- The number of a cause can come negated.
def readError (e : IO.Error) : ReadError :=
  let known (code : UInt32) : ReadError :=
    (ReadError.ofCode? (min code.toNat (-code).toNat)).getD (.other (toString e))
  match e with
  | .noFileOrDirectory _ code _ => known code
  | .permissionDenied _ code _ => known code
  | .inappropriateType _ code _ => known code
  | .invalidArgument _ code _ => known code
  | _ => .other (toString e)

def terminal : Console IO where
  readFile path := do
    match ← (IO.FS.readBinFile path).toBaseIO with
    | .error e => return .error (readError e)
    | .ok bytes =>
      match String.fromUTF8? bytes with
      | some text => return .ok text
      | none => return .error .notText
  print line := IO.println line
  timed work := do
    let start ← IO.monoNanosNow
    let value ← IO.lazyPure work
    let stop ← IO.monoNanosNow
    return (value, durationText (stop - start))

end GridKernel

open GridKernel in
def main (arguments : List String) : IO UInt32 := do
  match Command.parse arguments with
  | .error e =>
    IO.eprintln ("error: " ++ e.message)
    return 2
  | .ok command =>
    match ← (terminal.perform command).run with
    | .ok () => return 0
    | .error e =>
      IO.eprintln ("Error: " ++ e)
      return 1
