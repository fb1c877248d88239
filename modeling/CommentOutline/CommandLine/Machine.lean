import CommentOutline.Config.Source
import CommentOutline.Text.Utf7
import CommentOutline.Toml.Document

set_option autoImplicit false

/-! What a run relies on beside its program: a reader of TOML, the codecs that are not known here,
and the standard output. -/

namespace CommentOutline.CommandLine

/-- A standard output, by why it refuses a text. It never refuses one in ASCII. -/
structure Console where
  refusal? : List Text.Point → Option String
  plain : ∀ cs : List Char, (∀ c ∈ cs, c.toNat < 128) → refusal? (cs.map .char) = none

/-- An output in UTF-8. -/
def Console.utf8 : Console where
  refusal? points := (Text.firstRun? 0 points).map Text.HalfRun.message
  plain := by
    intro cs _
    rw [Text.firstRun?_map_char, Option.map_none]

structure Machine where
  readToml : Config.TomlReader
  codecs : Text.Codecs
  console : Console

def Machine.standard : Machine := ⟨Toml.read?, .standard, .utf8⟩

end CommentOutline.CommandLine
