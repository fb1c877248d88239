import CommentOutline.Config.Value
import CommentOutline.Json.Reader
import CommentOutline.Text.Lowercase

set_option autoImplicit false

/-! Settings from the environment. A variable whose name starts with the program's lead names a
section with the word up to the next underscore and a key in it with the rest, in lower case. -/

namespace CommentOutline.Config

structure Variable where
  name : String
  value : String
deriving Repr, DecidableEq

def environmentLead : String := "COMMENT_EXPLORER_"

inductive OverrideNote where
  | keptAsText (value : String)
  | applied (name word key : String)
deriving Repr, DecidableEq

def opensJson (text : String) : Bool :=
  match text.toList with
  | c :: _ => c = '[' || c = '{'
  | [] => false

/-- A truth value in any case, a JSON list or table by the given reader, or else the text itself. -/
def readSettingBy (read? : String → Option Value) (text : String) : Value :=
  let lowered := Text.lowercase text
  if lowered = "true" then .bool true
  else if lowered = "false" then .bool false
  else if opensJson text then (read? text).getD (.text text)
  else .text text

def readSetting (text : String) : Value := readSettingBy Json.read? text

def isBrokenJson (text : String) : Bool := opensJson text && (Json.read? text).isNone

def target? (name : String) : Option (String × String) :=
  if environmentLead.toList.isPrefixOf name.toList then
    let rest := String.ofList (name.toList.drop environmentLead.length)
    let lowered := (Text.lowercase rest).toList
    let word := lowered.takeWhile fun c => c ≠ '_'
    let key := lowered.drop (word.length + 1)
    if word.isEmpty || key.isEmpty then none else some (String.ofList word, String.ofList key)
  else none

/-- Applies one variable. A section that is missing is made; one that is no table stays as it
is. -/
def override (config : Table) (setting : Variable) : Table × List OverrideNote :=
  match target? setting.name with
  | none => (config, [])
  | some (word, key) =>
      match config.getD word (.table []) with
      | .table entries =>
          (config.put word (.table (Table.put entries key (readSetting setting.value))),
            (if isBrokenJson setting.value then [.keptAsText setting.value] else []) ++
              [.applied setting.name word key])
      | _ => (config, [])

def overrideAll (config : Table) : List Variable → Table × List OverrideNote
  | [] => (config, [])
  | setting :: environment =>
      let first := override config setting
      let rest := overrideAll first.1 environment
      (rest.1, first.2 ++ rest.2)

end CommentOutline.Config
