import JsonShape.Cli.Run

/-! The program.

What the arguments may refer to is read from the machine first. The command then works on that, and what
it does is done on the machine. No formatter is started, so documents stay as they were written.
-/

set_option autoImplicit false

namespace JsonShape.Program

open Cli (Action Attempt FileTree Location Stop)

def candidates (arguments : List Text) : List Text :=
  match Cli.take {} arguments with
  | .error _ => []
  | .ok taken =>
    taken.others ++ taken.given.filterMap fun
      | .text _ value => some value
      | .flag _ _ => none

def locations (tree : FileTree) (path : Text) : List Location :=
  let steps := Cli.names path
  let along := (List.range (steps.length + 1)).map fun n =>
    tree.resolve (Text.joined "/" (steps.take n))
  along ++ ({} : Documents).files.map fun (name, _) => tree.resolve path ++ [name]

def look (tree : FileTree) (l : Location) : IO FileTree := do
  let place := (← IO.currentDir) / (Location.path l).toString
  if ← place.isDir then return { tree with directories := l :: tree.directories }
  if ← place.pathExists then
    let bytes ← IO.FS.readBinFile place
    return { tree with files := (l, bytes.toList) :: tree.files }
  return tree

def readTree (arguments : List Text) : IO FileTree := do
  let here ← IO.currentDir
  let home := (Cli.names (Text.ofString here.toString)).filter (!·.isEmpty)
  let empty : FileTree := { home, files := [] }
  let all := (candidates arguments).flatMap (locations empty)
  all.eraseDups.foldlM look empty

def stopMessage : Stop → Text
  | .undecodable fault => fault.message
  | .configIsDirectory => "The configuration is a directory."
  | .configTooDeep => "The configuration is nested too deeply."
  | .targetIsDirectory => "A file to be written is a directory."
  | .noDirectory => "The output directory cannot be made."
  | .nameTooLong => "A name is too long for a file."
  | .nullInPath => Cli.nullMessage
  | .conversion (.unread .unencodable) => "The text holds surrogates."
  | .conversion (.unread (.oversizedInteger o)) => o.message
  | .conversion .noInference => "The settings have no options for inference."
  | .conversion .unusableName => "The root name cannot name a type."
  | .conversion .noFormatter | .formatterIsNoObject => "The formatter settings are no object."
  | .conversion .formatter => "The formatter failed."
  | .fixedReferences => SettingsFault.message .fixedReferences

def helpPage : Text :=
  let options : Text := Text.joined "\n  " ((Cli.longOptions ++ Cli.shortOptions).map (·.text))
  "Usage: " ++ Cli.commandName ++ " [OPTIONS] [PATH]\n\n  Generate TypeScript types, Zod schemas and " ++
    "an example value from sample JSON\n  at PATH.\n\nOptions:\n  " ++ options

/-- Documents are left as they are. -/
def surroundings : Cli.Surroundings where
  format _ code := some code
  helpPage := helpPage
  selector := "EpollSelector"
  traceback fault := "TypeError: " ++ fault.message
  formatterRecords := []

def act : Action → IO Unit
  | .print t => IO.print (Action.print t).printed.toString
  | .tell t => IO.eprint (Action.tell t).told.toString
  | .log r => IO.eprint (Action.log r).told.toString
  | .write location content => do
    let place := (← IO.currentDir) / (Location.path location).toString
    if let some directory := place.parent then IO.FS.createDirAll directory
    IO.FS.writeFile place content.toString

def finish (a : Attempt) : IO UInt32 := do
  a.actions.forM act
  match a.ending with
  | .ok exitCode =>
    if exitCode = 2 then IO.eprintln ""
    return UInt32.ofNat exitCode
  | .error stop =>
    IO.eprintln (stopMessage stop).toString
    return 1

def readInput (tree : FileTree) (arguments : List Text) : IO (List UInt8) := do
  match Cli.parse tree arguments with
  | .ok i =>
    if i.readsStandardInput then return (← (← IO.getStdin).readBinToEnd).toList else return []
  | .error _ => return []

end JsonShape.Program

open JsonShape in
def main (arguments : List String) : IO UInt32 := do
  let texts := arguments.map Text.ofString
  let tree ← Program.readTree texts
  let input ← Program.readInput tree texts
  Program.finish (Cli.attempt Program.surroundings tree input texts)
