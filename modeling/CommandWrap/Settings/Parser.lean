import CommandWrap.Homes
import CommandWrap.Json.Parser
import CommandWrap.Settings.Basic
import CommandWrap.Text.Blank

/-!
Settings as JSON objects. Only a text that is no object, or a log in a home that is not found, is
refused: a field of the wrong type keeps its default, and an entry of the wrong form is dropped.
-/
namespace CommandWrap

/-- What a JSON value is called when it is not the one expected. -/
def Json.typeName : Json → Text
  | .null => "NoneType"
  | .bool _ => "bool"
  | .int _ => "int"
  | .float _ => "float"
  | .string _ => "str"
  | .array _ => "list"
  | .object _ => "dict"

namespace Settings

inductive ParseError
  | json (error : Json.ParseError)
  | notObject (found : Text)
  | home (error : HomeError)

def ParseError.message : ParseError → Text
  | .json (.malformed flaw offset line column) =>
    "invalid JSON: " ++ (Json.ParseError.malformed flaw offset line column).message
  | .json error => error.message
  | .notObject found => "expected a JSON object, got " ++ found
  | .home error => error.message

def boolField (name : Text) (default : Bool) (members : Entries Json) : Bool :=
  match members.get? name with
  | some (.bool b) => b
  | _ => default

/-- Trimmed texts that are not blank, each once. -/
def patternsOf (values : List Json) : List Text :=
  values.foldl (fun patterns value =>
    match value with
    | .string t =>
      if t.trim = [] ∨ t.trim ∈ patterns then patterns else patterns ++ [t.trim]
    | _ => patterns) []

/-- An alias for a single word, by a text that is not blank. -/
def aliasOf? : Text × Json → Option (Text × Text)
  | (key, .string t) =>
    if t.isBlank ∨ key = [] ∨ key.any CodePoint.isBlank then none else some (key, t.trim)
  | _ => none

def patternsField (members : Entries Json) : List Text :=
  match members.get? "patterns" with
  | some (.array values) => patternsOf values
  | _ => defaultPatterns

def aliasesField (members : Entries Json) : Entries Text :=
  match members.get? "aliases" with
  | some (.object entries) => entries.filterMap aliasOf?
  | _ => defaultAliases

def logField (homes : Homes) (members : Entries Json) : Except ParseError (Option Path) :=
  match members.get? "log" with
  | some (.string t) =>
    if t.isBlank then .ok none
    else match (Path.ofText t.trim).expandHome homes with
      | .ok path => .ok (some path)
      | .error error => .error (.home error)
  | _ => .ok none

def ofMembers (homes : Homes) (members : Entries Json) : Except ParseError Settings :=
  (logField homes members).map fun log =>
    { enabled := boolField "enabled" true members
      patterns := patternsField members
      aliases := aliasesField members
      autoApprove := boolField "auto_approve" false members
      log := log
      logFull := boolField "log_full" false members }

def parse (limit : Json.Limit) (homes : Homes) (text : Text) : Except ParseError Settings :=
  match Json.parse limit text with
  | .error error => .error (.json error)
  | .ok (.object members) => ofMembers homes members
  | .ok value => .error (.notObject value.typeName)

end Settings
end CommandWrap
