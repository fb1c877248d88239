import CommentOutline.Format

set_option autoImplicit false

/-! What can stand on a command line: the program and each of its commands have switches and
operands of their own. -/

namespace CommentOutline.CommandLine

inductive Switch where
  | help
  | version
  | config
  | verbose
  | quiet
  | format
  | output
  | encoding
deriving Repr, DecidableEq

namespace Switch

/-- The ways to write a switch; a letter stands behind one dash, a word behind two. -/
def spellings : Switch → List String
  | .help => ["-h", "--help"]
  | .version => ["--version"]
  | .config => ["--config"]
  | .verbose => ["-v", "--verbose"]
  | .quiet => ["-q", "--quiet"]
  | .format => ["--format"]
  | .output => ["-o", "--output"]
  | .encoding => ["--encoding"]

def takesValue : Switch → Bool
  | .config | .format | .output | .encoding => true
  | .help | .version | .verbose | .quiet => false

def title (switch : Switch) : String := "/".intercalate switch.spellings

end Switch

inductive Scope where
  | program
  | outline
  | config
  | configShow
  | configPath
  | version
deriving Repr, DecidableEq

inductive Operand where
  | nothing
  | path
  | command (name : String) (choices : List (String × Scope))
deriving Repr, DecidableEq

namespace Scope

def switches : Scope → List Switch
  | .program => [.help, .version, .config, .verbose, .quiet]
  | .outline => [.help, .format, .output, .encoding]
  | .config | .configShow | .configPath | .version => [.help]

/-- Every spelling with its switch, in the order in which help lists them. -/
def spellings (scope : Scope) : List (String × Switch) :=
  scope.switches.flatMap fun switch => switch.spellings.map fun spelling => (spelling, switch)

def switch? (scope : Scope) (spelling : String) : Option Switch := scope.spellings.lookup spelling

def operand : Scope → Operand
  | .program =>
      .command "command" [("outline", .outline), ("config", .config), ("version", .version)]
  | .outline => .path
  | .config => .command "config_action" [("show", .configShow), ("path", .configPath)]
  | .configShow | .configPath | .version => .nothing

def title : Scope → String
  | .program => "comment-explorer"
  | .outline => "comment-explorer outline"
  | .config => "comment-explorer config"
  | .configShow => "comment-explorer config show"
  | .configPath => "comment-explorer config path"
  | .version => "comment-explorer version"

end Scope

end CommentOutline.CommandLine
