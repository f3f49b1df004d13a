import JsonShape.Cli.Arguments

/-! The header of written files.

The header repeats the command line: the input, then the options that were given, in the order in which
they are declared and under their first spelling. Options without effect are left out, and paths to
something that exists are cut down to their last name.
-/

set_option autoImplicit false

namespace JsonShape.Cli

def commandName : Text := "json_to_tszod"

/-- An option with a value; an empty value is left out. -/
def shownOption (tree : FileTree) (spelling : Text) (value : Option Text) : List Text :=
  match value with
  | none => []
  | some value => if value.isEmpty then [] else [spelling, tree.shown value]

def shownFlag (spelling : Text) (b : Bool) : List Text := if b then [spelling] else []

def shownInput (tree : FileTree) (input : Option Text) : List Text :=
  match input with
  | none => []
  | some value => if value.isEmpty then [] else [tree.shown value]

def commandParts (tree : FileTree) (i : Invocation) : List Text :=
  shownInput tree i.input ++
    shownOption tree "--name" i.name ++
    shownOption tree "--config" (i.config.map Location.path) ++
    shownOption tree "--style" (i.style.map OutputStyle.name) ++
    shownFlag "--strict" i.strict ++
    shownFlag "--detect-dates" i.detectDates ++
    shownFlag "--snake-to-camel" i.snakeToCamel ++
    shownFlag "--format" (i.format.getD false) ++
    shownOption tree "--sample" (i.sample.map (·.name)) ++
    shownFlag "--list-samples" i.listSamples ++
    shownOption tree "--output-dir" (i.outputDir.map Location.path) ++
    shownFlag "--verbose" i.verbose

def commandLine (tree : FileTree) (i : Invocation) : Text :=
  Text.joined " " (commandName :: commandParts tree i)

def header (line : Text) : Text :=
  "// Generated by " ++ commandName ++ ": " ++ line ++ "\n// Do not edit by hand.\n\n"

end JsonShape.Cli
