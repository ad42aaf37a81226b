import GridKernel.Command.Options

namespace GridKernel

def programVersion : String := "0.1.0"

def versionLine : String := "kernelfall " ++ programVersion

def infoLines : List String :=
  ["Kernelfall v" ++ programVersion,
    "Data-parallel kernels compiled to WGSL with CPU fallback",
    "",
    "Backends:",
    "  ✗ wgpu (not enabled, build with --features webgpu-backend)",
    "  ✓ software device (--software)",
    "  ✓ CPU executor",
    "",
    "Examples:",
    "  kernelfall run scale --dimensions 8",
    "  kernelfall run matmul --dimensions 16,16 --mode gpu --software"]

namespace RunOption

def about : RunOption → String
  | .mode => "Execution mode: auto, gpu or cpu"
  | .dimensions => "Thread grid, comma separated x,y,z"
  | .config => "TOML file with `dimensions` and `mode`"
  | .software => "Use the host-emulated device instead of probing for an adapter"
  | .showShader => "Print the generated WGSL"
  | .verbose => "Enable verbose output"
  | .help => "Print help"

def valueName? : RunOption → Option String
  | .mode => some "<MODE>"
  | .dimensions => some "<DIMENSIONS>"
  | .config => some "<CONFIG>"
  | _ => none

def usage (o : RunOption) : String :=
  let letter := match o.short? with
    | some c => "-" ++ c.toString ++ ", "
    | none => "    "
  let value := match o.valueName? with
    | some name => " " ++ name
    | none => ""
  letter ++ "--" ++ o.long ++ value

end RunOption

def padRight (width : Nat) (text : String) : String :=
  text ++ String.ofList (List.replicate (width - text.length) ' ')

namespace HelpTopic

def runHead : List String :=
  ["Compile and run a demo kernel",
    "",
    "Usage: kernelfall run [OPTIONS] <DEMO>",
    "",
    "Arguments:"]

-- One line for each option, with the explanations in one column.
def shortOption (o : RunOption) : String :=
  let more := if o = .help then " (see more with '--help')" else ""
  "  " ++ padRight 31 o.usage ++ o.about ++ more

def runShort : List String :=
  runHead ++
    ["  <DEMO>  Which kernel to run [possible values: " ++
      Text.joined ", " (Demo.all.map Demo.name) ++ "]",
      "",
      "Options:"] ++
    RunOption.all.map shortOption

def fullDemo (d : Demo) : String := "          - " ++ padRight 10 (d.name ++ ":") ++ d.about

-- The explanation on a line of its own, after an empty one.
def fullOption (o : RunOption) : List String :=
  let more := if o = .help then " (see a summary with '-h')" else ""
  ["", "  " ++ o.usage, "          " ++ o.about ++ more]

def runFull : List String :=
  runHead ++
    ["  <DEMO>",
      "          Which kernel to run",
      "",
      "          Possible values:"] ++
    Demo.all.map fullDemo ++
    ["", "Options:"] ++
    (RunOption.all.flatMap fullOption).drop 1

def lines : HelpTopic → List String
  | .program =>
    ["Kernelfall - GPU compute kernels with CPU fallback",
      "",
      "Usage: kernelfall <COMMAND>",
      "",
      "Commands:",
      "  run   Compile and run a demo kernel",
      "  info  Show available backends",
      "  help  Print this message or the help of the given subcommand(s)",
      "",
      "Options:",
      "  -h, --help     Print help",
      "  -V, --version  Print version"]
  | .run true => runFull
  | .run false => runShort
  | .info =>
    ["Show available backends",
      "",
      "Usage: kernelfall info",
      "",
      "Options:",
      "  -h, --help  Print help"]
  | .help =>
    ["Print this message or the help of the given subcommand(s)",
      "",
      "Usage: kernelfall help [COMMAND]...",
      "",
      "Arguments:",
      "  [COMMAND]...  Print help for the subcommand(s)"]

end HelpTopic
end GridKernel
