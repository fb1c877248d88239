import CommentOutline.CommandLine.Arguments
import CommentOutline.CommandLine.Machine
import CommentOutline.CommandLine.Usage
import CommentOutline.Config.Display
import CommentOutline.Config.Source
import CommentOutline.Document
import CommentOutline.Json.Writer

set_option autoImplicit false

/-! Running the program on a file tree. -/

namespace CommentOutline.CommandLine

open Config (Table Value Variable)
open FileTree (Path Place Tree)
open Text (StandIns)

structure Surroundings where
  tree : Tree
  directory : Place
  environment : List Variable
  machine : Machine

/-- What a run comes to: an exit code, or the failure that it ends with, and what it leaves. -/
structure Outcome where
  result : Except Failure Nat
  output : String
  errors : String
  tree : Tree

namespace Surroundings

def complain (here : Surroundings) (text : String) : Outcome := ⟨.ok 1, "", text ++ "\n", here.tree⟩

/-- Prints a text and a line break, if the standard output takes the text. -/
def print (here : Surroundings) (tree : Tree) (standIns : StandIns) (text : String) : Outcome :=
  match here.machine.console.refusal? (standIns.points text) with
  | some message => ⟨.error (.print message), "", "", tree⟩
  | none => ⟨.ok 0, text ++ "\n", "", tree⟩

/-- The effective configuration: from the file named on the command line, or else from the nearest
one. -/
def config (here : Surroundings) (given : Given) (start : Path) : Noted Table :=
  let get (path : Option Path) :=
    Config.get here.machine.readToml here.tree here.directory here.environment path start
  match given.config with
  | none => get none
  | some (.given name) => get (some (.ofString name))
  | some .lacking => .fail .configUnnamed

end Surroundings

def tableAt (config : Table) (key : String) : Except Failure Table :=
  match config.getD key (.table []) with
  | .table entries => .ok entries
  | value => .error (.noTable value)

def formatSetting (given : Given) (config : Table) : Except Failure Value :=
  match given.format with
  | some format => .ok (.text format.name)
  | none => (tableAt config "output").map fun output => output.getD "format" (.text "text")

def outlineOf (document : Document) (settings : Comment.Settings) : Noted (List Outline.Node) :=
  match settings.check with
  | .error error => .fail (.settings error)
  | .ok style =>
      let pairs := document.scan style
      match (Outline.Builder.start style.separator).build pairs with
      | (_, some error) => .fail (.build error)
      | (builder, none) =>
          ⟨[.scanned document.lineCount pairs.length, .built (builder.tally pairs)],
            .ok builder.forest⟩

/-- The document of a path and what stands in it for halves of surrogate pairs, which is not among
the other characters. -/
def readDocument (here : Surroundings) (given : Given) (others : List Char) (path : Path) :
    Except Failure (Document × StandIns) :=
  match given.encoding.getD (.given "utf-8") with
  | .lacking => .error .encodingUnnamed
  | .given encoding =>
      match here.tree.readHeld here.machine.codecs others here.directory path encoding with
      | .ok held => .ok (.ofHeld held path encoding, held.standIns)
      | .error error => .error (.read error)

/-- An outline and how it is to be written. -/
structure Sheet where
  format : Format
  standIns : StandIns
  forest : List Outline.Node

def Sheet.content (sheet : Sheet) (title : String) : String :=
  sheet.format.render sheet.standIns title sheet.forest

/-- What an outline run comes to before it hands anything over: a complaint, or a sheet. -/
def prepared (here : Surroundings) (given : Given) (name : String) :
    Noted (Except String Sheet) :=
  let path := Path.ofString name
  if !here.tree.isFile here.directory path then
    .done (.error ("Error: File not found: " ++ path.toString))
  else
    (here.config given path.parent).andThen fun config =>
    (Noted.ofExcept (tableAt config "annotations")).andThen fun annotations =>
    (Noted.ofExcept (formatSetting given config)).andThen fun setting =>
      match setting.text?.bind Format.ofName? with
      | none =>
          if setting.hasLong then .fail .tooLong
          else .done (.error ("Error: Unknown format '" ++ setting.shown ++ "'"))
      | some format =>
          let settings := Comment.Settings.ofTable annotations
          let others := settings.chars ++ path.toString.toList
          (Noted.ofExcept (readDocument here given others path)).andThen fun source =>
          (outlineOf source.1 settings).andThen fun forest =>
            .done (.ok ⟨format, source.2, forest⟩)

/-- Writes a content and a line break into a file. The file is emptied when it is opened, before it
is known whether the content has bytes; and it stays written where the word of it is refused. -/
def deliverTo (here : Surroundings) (quiet : Bool) (standIns : StandIns) (content : String)
    (path : Path) : Outcome :=
  match here.tree.writable here.directory path with
  | .error error => ⟨.error (.write error), "", "", here.tree⟩
  | .ok place =>
      let opened := here.tree.put place (.file [])
      match Text.Utf8.encodePoints (standIns.points (content ++ "\n")) with
      | .error run => ⟨.error (.encode run), "", "", opened⟩
      | .ok bytes =>
          let written := opened.put place (.file bytes)
          if quiet then ⟨.ok 0, "", "", written⟩
          else here.print written [] ("Wrote " ++ path.toString)

/-- Hands a content over: to a file, to the output, or with a word of regret if there is none. -/
def deliver (here : Surroundings) (given : Given) (standIns : StandIns) (content : String) :
    Outcome :=
  match given.output with
  | some name => deliverTo here given.quiet standIns content (.ofString name)
  | none =>
      if content ≠ "" then here.print here.tree standIns content
      else ⟨.ok 0, "", if given.quiet then "" else "No annotations found.\n", here.tree⟩

def handOver (here : Surroundings) (given : Given) (name : String) : Except String Sheet → Outcome
  | .error complaint => here.complain complaint
  | .ok sheet =>
      deliver here given sheet.standIns (sheet.content (Path.ofString name).toString)

def runOutline (here : Surroundings) (given : Given) (name : String) : Noted Outcome :=
  (prepared here given name).andThen fun ready => .done (handOver here given name ready)

def showConfig (config : Table) : Except Failure String :=
  let sorted := Json.sortKeys (.table config)
  match Json.firstUnshown? sorted with
  | some (.moment moment) => .error (.noJson moment)
  | some .long => .error .tooLong
  | none => .ok (Json.render (.ofIndent (some 2)) sorted)

def runConfigShow (here : Surroundings) (given : Given) : Noted Outcome :=
  (here.config given (.ofString "")).andThen fun config =>
    .ofExcept ((showConfig config).map (here.print here.tree []))

def runConfigPath (here : Surroundings) (given : Given) : Noted Outcome :=
  match given.config with
  | some .lacking => .fail .configUnlocated
  | some (.given name) =>
      let path := Path.ofString name
      if here.tree.isFile here.directory path then .done (here.print here.tree [] path.toString)
      else .done (here.complain ("Error: Config file not found: " ++ path.toString))
  | none =>
      match Config.find? here.tree here.directory (.ofString "") with
      | some path => .done (here.print here.tree [] path.toString)
      | none => .done (here.complain "No config file found (using defaults).")

def versionText : String := "comment-explorer " ++ CommentOutline.version

def runCommand (here : Surroundings) (given : Given) : Command → Noted Outcome
  | .outline path => runOutline here given path
  | .config => .done (here.complain "Usage: comment-explorer config <show|path>")
  | .configShow => runConfigShow here given
  | .configPath => runConfigPath here given
  | .version => .done (here.print here.tree [] versionText)

/-- What a run has come to, before anyone is told of its failure. -/
def outcomeOf (here : Surroundings) (run : Noted Outcome) : Outcome :=
  match run.result with
  | .ok outcome => outcome
  | .error failure => ⟨.error failure, "", "", here.tree⟩

/-- Ends a run. Notices are for the verbose only; so are failures as such, of which others just
get the message. -/
def finish (here : Surroundings) (verbose : Bool) (run : Noted Outcome) : Outcome :=
  let outcome := outcomeOf here run
  if verbose then
    { outcome with errors := String.join (run.notices.map Notice.line) ++ outcome.errors }
  else
    match outcome.result with
    | .ok _ => outcome
    | .error failure =>
        { outcome with result := .ok 1, errors := "Error: " ++ failure.message ++ "\n" }

def halt (here : Surroundings) : Stop → Outcome
  | .help scope => ⟨.ok 0, scope.help, "", here.tree⟩
  | .version => ⟨.ok 0, versionText ++ "\n", "", here.tree⟩
  | .misuse scope error =>
      ⟨.ok 2, "", scope.usage ++ scope.title ++ ": error: " ++ error.message ++ "\n", here.tree⟩

def run (here : Surroundings) (arguments : List String) : Outcome :=
  match invocation arguments with
  | .error stop => halt here stop
  | .ok ⟨_, none⟩ => halt here (.help .program)
  | .ok ⟨given, some command⟩ => finish here given.verbose (runCommand here given command)

end CommentOutline.CommandLine
