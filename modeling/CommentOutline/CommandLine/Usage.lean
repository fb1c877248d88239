import CommentOutline.CommandLine.Scope

set_option autoImplicit false

/-! The usage and help texts of the program and its commands. -/

namespace CommentOutline.CommandLine.Scope

def usage : Scope → String
  | .program =>
      "usage: comment-explorer [-h] [--version] [--config PATH] [-v] [-q]\n" ++
        "                        \x7boutline,config,version\x7d ...\n"
  | .outline =>
      "usage: comment-explorer outline [-h] [--format \x7btext,json,markdown,html\x7d]\n" ++
        "                                [-o PATH] [--encoding ENCODING]\n" ++
        "                                path\n"
  | .config => "usage: comment-explorer config [-h] \x7bshow,path\x7d ...\n"
  | .configShow => "usage: comment-explorer config show [-h]\n"
  | .configPath => "usage: comment-explorer config path [-h]\n"
  | .version => "usage: comment-explorer version [-h]\n"

def programDetails : String :=
  "\nOutline view built from '#--' comment annotations\n" ++
    "\npositional arguments:\n" ++
    "  \x7boutline,config,version\x7d\n" ++
    "                        Available commands\n" ++
    "    outline             Print the comment outline of a file\n" ++
    "    config              Inspect configuration\n" ++
    "    version             Show version\n" ++
    "\noptions:\n" ++
    "  -h, --help            show this help message and exit\n" ++
    "  --version             show program's version number and exit\n" ++
    "  --config PATH         Path to configuration file\n" ++
    "  -v, --verbose         Verbose output\n" ++
    "  -q, --quiet           Suppress non-error output\n" ++
    "\nAnnotation syntax:\n" ++
    "  // #-- Setup                    # Flat entry\n" ++
    "  // #-- Network :: sockets       # Entry 'sockets' under group 'Network'\n" ++
    "  /* #-- Network :: TLS :: init */ # Nested groups, block comment style\n" ++
    "\nExamples:\n" ++
    "  comment-explorer outline src/main.c               # Indented tree\n" ++
    "  comment-explorer outline src/main.c --format json # JSON for tooling\n" ++
    "  comment-explorer config show                      # Effective settings\n" ++
    "\nFor detailed command help: comment-explorer <command> --help\n" ++
    "        \n"

def outlineDetails : String :=
  "\npositional arguments:\n" ++
    "  path                  Source file to scan\n" ++
    "\noptions:\n" ++
    "  -h, --help            show this help message and exit\n" ++
    "  --format \x7btext,json,markdown,html\x7d\n" ++
    "                        Output format (default: output.format from config,\n" ++
    "                        else text)\n" ++
    "  -o PATH, --output PATH\n" ++
    "                        Write to file instead of stdout\n" ++
    "  --encoding ENCODING   Source file encoding (default: utf-8)\n"

def configDetails : String :=
  "\npositional arguments:\n" ++
    "  \x7bshow,path\x7d\n" ++
    "    show       Print the effective configuration\n" ++
    "    path       Print the config file in use\n" ++
    "\noptions:\n" ++
    "  -h, --help   show this help message and exit\n"

def onlyHelpDetails : String := "\noptions:\n  -h, --help  show this help message and exit\n"

def help (scope : Scope) : String :=
  scope.usage ++ match scope with
    | .program => programDetails
    | .outline => outlineDetails
    | .config => configDetails
    | .configShow | .configPath | .version => onlyHelpDetails

end CommentOutline.CommandLine.Scope
