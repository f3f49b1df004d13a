import JsonShape.Document.Dialect
import JsonShape.Inference.Progress
import JsonShape.Json.Display

/-! Settings.

Settings are read from a JSON object, each member under the name of an option or under its other spelling
with humps. Later members win and unknown members are passed over. Only the output style is checked;
every other value is kept as it is and takes effect where it is used. Besides their options settings have a
few attributes, which a member of the same name overwrites.
-/

set_option autoImplicit false

namespace JsonShape

open Json (Value Member)

inductive OutputStyle where
  | type
  | interface
  deriving DecidableEq

def OutputStyle.name : OutputStyle → Text
  | .type => "type"
  | .interface => "interface"

def OutputStyle.ofName? (name : Text) : Option OutputStyle :=
  [OutputStyle.type, .interface].find? (·.name = name)

structure FormatterOptions where
  enabled : Value := .bool false
  printWidth : Value := .number (.integer 80)
  tabWidth : Value := .number (.integer 2)
  timeout : Value := .number (.integer 30)

inductive FormatterSetting where
  | options (o : FormatterOptions)
  | other (v : Value)

structure Settings where
  rootName : Value := .string "Root"
  outputStyle : OutputStyle := .type
  strictObjects : Value := .bool false
  detectDates : Value := .bool false
  snakeToCamel : Value := .bool false
  formatter : FormatterSetting := .options {}

/-- Settings as they are read, which may have lost what else they had. -/
structure SettingsObject extends Settings where
  /-- A style that was never checked, in place of the output style. -/
  rawStyle : Option Value := none
  infers : Bool := true
  saves : Bool := true

instance : Coe Settings SettingsObject := ⟨fun s => { toSettings := s }⟩

inductive Attribute where
  | kind
  | contents
  | references
  | inferOptions
  | save
  deriving DecidableEq

def Attribute.name : Attribute → Text
  | .kind => "__class__"
  | .contents => "__dict__"
  | .references => "__weakref__"
  | .inferOptions => "infer_settings"
  | .save => "to_dict"

def Attribute.all : List Attribute := [.kind, .contents, .references, .inferOptions, .save]

def Attribute.ofName? (name : Text) : Option Attribute := Attribute.all.find? (·.name = name)

inductive SettingsFault where
  | notObject (v : Value)
  | unknownStyle (v : Value)
  | notKind (v : Value)
  | notContents (v : Value)
  | fixedReferences

def SettingsFault.message : SettingsFault → Text
  | .notObject v => "Settings must be a JSON object, got " ++ v.kindName
  | .unknownStyle v => v.display ++ " is not a valid OutputStyle"
  | .notKind v => "__class__ must be set to a class, not '" ++ v.kindName ++ "' object"
  | .notContents v => "__dict__ must be set to a dictionary, not a '" ++ v.kindName ++ "'"
  | .fixedReferences => "attribute '__weakref__' of 'ConverterSettings' objects is not writable"

/-- Spellings with humps and the names they stand for, the same for all options. -/
def settingAliases : List (Text × Text) := [
  ("rootTypeName", "root_type_name"),
  ("outputStyle", "output_style"),
  ("strictObjects", "strict_objects"),
  ("detectDates", "detect_dates"),
  ("snakeToCamel", "snake_to_camel"),
  ("printWidth", "print_width"),
  ("tabWidth", "tab_width")]

def settingName (key : Text) : Text := (settingAliases.lookup key).getD key

namespace FormatterOptions

def set (o : FormatterOptions) (member : Member) : FormatterOptions :=
  let (key, v) := member
  let name := settingName key
  if name = "enabled" then { o with enabled := v }
  else if name = "print_width" then { o with printWidth := v }
  else if name = "tab_width" then { o with tabWidth := v }
  else if name = "timeout" then { o with timeout := v }
  else o

def ofMembers (members : List Member) : FormatterOptions := members.foldl set {}

def toValue (o : FormatterOptions) : Value :=
  .object [("enabled", o.enabled), ("print_width", o.printWidth), ("tab_width", o.tabWidth),
    ("timeout", o.timeout)]

end FormatterOptions

def OutputStyle.ofValue (v : Value) : Except SettingsFault OutputStyle :=
  match v with
  | .string name =>
    match OutputStyle.ofName? name with
    | some style => .ok style
    | none => .error (.unknownStyle v)
  | _ => .error (.unknownStyle v)

def FormatterSetting.ofValue : Value → FormatterSetting
  | .object members => .options (FormatterOptions.ofMembers members)
  | v => .other v

namespace SettingsObject

/-- All options and attributes at once, each as it is given. There is no default for the formatter. -/
def ofContents (members : List Member) : SettingsObject :=
  let given (a : Attribute) : Bool := (Json.lookup? members a.name).isSome
  let style := Json.lookup? members "output_style"
  { rootName := (Json.lookup? members "root_type_name").getD (.string "Root")
    outputStyle :=
      match style with
      | some (.string name) => (OutputStyle.ofName? name).getD .type
      | _ => .type
    strictObjects := (Json.lookup? members "strict_objects").getD (.bool false)
    detectDates := (Json.lookup? members "detect_dates").getD (.bool false)
    snakeToCamel := (Json.lookup? members "snake_to_camel").getD (.bool false)
    formatter := .other ((Json.lookup? members "formatter").getD .null)
    rawStyle := style
    infers := !given .inferOptions
    saves := !given .save }

def overwrite (s : SettingsObject) (a : Attribute) (v : Value) : Except SettingsFault SettingsObject :=
  match a with
  | .kind => .error (.notKind v)
  | .contents =>
    match v with
    | .object members => .ok (ofContents members)
    | v => .error (.notContents v)
  | .references => .error .fixedReferences
  | .inferOptions => .ok { s with infers := false }
  | .save => .ok { s with saves := false }

def set (s : SettingsObject) (member : Member) : Except SettingsFault SettingsObject :=
  let (key, v) := member
  let name := settingName key
  if name = "root_type_name" then .ok { s with rootName := v }
  else if name = "output_style" then do
    let style ← OutputStyle.ofValue v
    .ok { s with outputStyle := style, rawStyle := none }
  else if name = "strict_objects" then .ok { s with strictObjects := v }
  else if name = "detect_dates" then .ok { s with detectDates := v }
  else if name = "snake_to_camel" then .ok { s with snakeToCamel := v }
  else if name = "formatter" then .ok { s with formatter := .ofValue v }
  else
    match Attribute.ofName? name with
    | some a => s.overwrite a v
    | none => .ok s

def ofValue : Value → Except SettingsFault SettingsObject
  | .object members => members.foldlM set {}
  | v => .error (.notObject v)

/-- The value that gives these settings. There is none for a formatter that is no object, for a style that
was never checked and where the settings cannot be asked. -/
def toValue? (s : SettingsObject) : Option Value :=
  match s.formatter, s.rawStyle, s.saves with
  | .options o, none, true =>
    some (.object [("rootTypeName", s.rootName), ("outputStyle", .string s.outputStyle.name),
      ("strictObjects", s.strictObjects), ("detectDates", s.detectDates),
      ("snakeToCamel", s.snakeToCamel), ("formatter", o.toValue)])
  | _, _, _ => none

/-- Whether all options count as their defaults, a number standing for the truth value it equals. -/
def isDefault (s : SettingsObject) : Bool :=
  (match s.rootName with | .string name => name = "Root" | _ => false) &&
  (match s.rawStyle with
    | none => s.outputStyle = .type
    | some (.string name) => name = OutputStyle.type.name
    | some _ => false) &&
  s.strictObjects.equalsNat 0 && s.detectDates.equalsNat 0 &&
  s.snakeToCamel.equalsNat 0 &&
  match s.formatter with
  | .options o =>
    o.enabled.equalsNat 0 && o.printWidth.equalsNat 80 && o.tabWidth.equalsNat 2 &&
      o.timeout.equalsNat 30
  | .other _ => false

end SettingsObject

namespace Settings

def rootText (s : Settings) : Text := s.rootName.plain

def inferOptions (s : Settings) : Inference.Options where
  rootName := s.rootText
  detectsDates := s.detectDates.holds

def style (s : Settings) : Style where
  rootName := s.rootText
  interfaces := s.outputStyle = .interface
  strict := s.strictObjects.holds
  checksDates := s.detectDates.holds
  camelKeys := s.snakeToCamel.holds

end Settings

end JsonShape
