import CommentOutline.Outline.Builder

set_option autoImplicit false

/-! The settings of the annotation pattern: as a configuration gives them, and as the pattern
needs them. -/

namespace CommentOutline.Comment

open Config (Value Table)
open Outline (Separator)

/-- The settings before any check; every one may be a value of any type. -/
structure Settings where
  openers : Value
  marker : Value
  separator : Value
  closer : Value
deriving Repr, DecidableEq

def Settings.standard : Settings :=
  ⟨.list [.text "//", .text "/*"], .text "#--", .text "::", .text "*/"⟩

/-- A single text given for the openers counts as a list of one. -/
def openersOf : Value → Value
  | .text opener => .list [.text opener]
  | value => value

/-- The settings of a table; what it does not give is standard. -/
def Settings.ofTable (table : Table) : Settings where
  openers := openersOf (table.getD "comment_styles" Settings.standard.openers)
  marker := table.getD "marker" Settings.standard.marker
  separator := table.getD "separator" Settings.standard.separator
  closer := table.getD "block_close" Settings.standard.closer

def textsIn : Value → List String
  | .text text => [text]
  | .list items => items.filterMap Value.text?
  | _ => []

/-- The characters that a pattern of the settings may look for. -/
def Settings.chars (settings : Settings) : List Char :=
  ([settings.openers, settings.marker, settings.separator, settings.closer].flatMap textsIn).flatMap
    String.toList

/-- Settings that make a pattern. An empty closer stands for none. -/
structure Style where
  openers : List String
  marker : String
  separator : Separator
  closer : String
deriving Repr, DecidableEq

def Style.standard : Style := ⟨["//", "/*"], "#--", .token "::", "*/"⟩

inductive SettingsError where
  | openersNotTexts
  | openersMissing
  | markerMissing
  | separatorMissing
  | closerNotText (value : Value)
  | markerNotText (value : Value)
deriving Repr, DecidableEq

def texts? : List Value → Option (List String)
  | [] => some []
  | .text text :: rest => (texts? rest).map (text :: ·)
  | _ :: _ => none

def openerTexts? : Value → Option (List String)
  | .list items => texts? items
  | _ => none

def separatorOf : Value → Separator
  | .text text => .token text
  | value => .notText value

/-- The style of settings that pass all checks. The type of the separator is not among them: it
matters only once there is a label to cut. -/
def Settings.check (settings : Settings) : Except SettingsError Style :=
  match openerTexts? settings.openers with
  | none => .error .openersNotTexts
  | some openers =>
      if openers.isEmpty || openers.contains "" then .error .openersMissing
      else if !settings.marker.isSet then .error .markerMissing
      else if !settings.separator.isSet then .error .separatorMissing
      else if settings.closer.isSet && !settings.closer.isText then
        .error (.closerNotText settings.closer)
      else match settings.marker with
        | .text marker =>
            .ok ⟨openers, marker, separatorOf settings.separator, settings.closer.text?.getD ""⟩
        | marker => .error (.markerNotText marker)

def SettingsError.message : SettingsError → String
  | .openersNotTexts => "annotations.comment_styles must be a list of strings"
  | .openersMissing => "annotations.comment_styles must list non-empty comment openers"
  | .markerMissing => "annotations.marker must not be empty"
  | .separatorMissing => "annotations.separator must not be empty"
  | .closerNotText value | .markerNotText value =>
      "decoding to str: need a bytes-like object, " ++ value.typeWord ++ " found"

end CommentOutline.Comment
