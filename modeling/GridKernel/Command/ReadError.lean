namespace GridKernel

inductive ReadError where
  | missing
  | denied
  | insideFile
  | folder
  | longName
  | notText
  | other (text : String)

namespace ReadError

def code? : ReadError → Option Nat
  | .missing => some 2
  | .denied => some 13
  | .insideFile => some 20
  | .folder => some 21
  | .longName => some 36
  | .notText => none
  | .other _ => none

def cause : ReadError → String
  | .missing => "No such file or directory"
  | .denied => "Permission denied"
  | .insideFile => "Not a directory"
  | .folder => "Is a directory"
  | .longName => "File name too long"
  | .notText => "stream did not contain valid UTF-8"
  | .other text => text

def message (e : ReadError) : String :=
  match e.code? with
  | some code => s!"{e.cause} (os error {code})"
  | none => e.cause

def ofCode? (code : Nat) : Option ReadError :=
  [missing, denied, insideFile, folder, longName].find? (·.code? = some code)

end ReadError

end GridKernel
