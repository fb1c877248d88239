import CommentOutline.CommandLine.Token

set_option autoImplicit false

/-! What a command line asks for. The arguments of a scope are taken from left to right; a call
for help or for the version ends the reading at once, and so does the first mistake. Arguments
that nothing takes are gathered and refused at the end. -/

namespace CommentOutline.CommandLine

inductive Stop where
  | help (scope : Scope)
  | version
  | misuse (scope : Scope) (error : UsageError)
deriving Repr, DecidableEq

/-- What a switch got for its value. Two lone dashes stand for no text at all. -/
inductive SwitchValue where
  | given (text : String)
  | lacking
deriving Repr, DecidableEq

def SwitchValue.ofText (text : String) : SwitchValue :=
  if text = "--" then .lacking else .given text

def SwitchValue.text? : SwitchValue → Option String
  | .given text => some text
  | .lacking => none

/-- The switches given so far. Of a value that is given twice the last one counts. -/
structure Given where
  verbose : Bool
  quiet : Bool
  config : Option SwitchValue
  format : Option Format
  output : Option String
  encoding : Option SwitchValue
deriving Repr, DecidableEq

def Given.nothing : Given := ⟨false, false, none, none, none, none⟩

structure Reading where
  given : Given
  path : Option String
  command : Option (Scope × List String)
  surplus : List String
deriving Repr, DecidableEq

namespace Reading

def start (given : Given) : Reading := ⟨given, none, none, []⟩

def skip (reading : Reading) (text : String) : Reading :=
  { reading with surplus := reading.surplus ++ [text] }

/-- Takes a switch into account, with its value if it takes one. A format or an output without a
text counts as not given. -/
def take (scope : Scope) (reading : Reading) (switch : Switch) (value : Option SwitchValue) :
    Except Stop Reading :=
  let given := reading.given
  match switch with
  | .help => .error (.help scope)
  | .version => .error .version
  | .verbose => .ok { reading with given := { given with verbose := true } }
  | .quiet => .ok { reading with given := { given with quiet := true } }
  | .config => .ok { reading with given := { given with config := value } }
  | .output => .ok { reading with given := { given with output := value.bind (·.text?) } }
  | .encoding => .ok { reading with given := { given with encoding := value } }
  | .format =>
      match value.bind (·.text?) with
      | none => .ok { reading with given := { given with format := none } }
      | some name =>
          match Format.ofName? name with
          | some format => .ok { reading with given := { given with format := some format } }
          | none => .error (.misuse scope
              (.invalidChoice switch.title name (Format.all.map Format.name)))

def takeAll (scope : Scope) (reading : Reading) :
    List (Switch × Option SwitchValue) → Except Stop Reading
  | [] => .ok reading
  | (switch, value) :: rest =>
      match reading.take scope switch value with
      | .ok next => next.takeAll scope rest
      | .error stop => .error stop

end Reading

structure Cluster where
  complete : List (Switch × Option SwitchValue)
  wanting : Option Switch
deriving Repr, DecidableEq

namespace Cluster

def single (switch : Switch) : Cluster :=
  if switch.takesValue then ⟨[], some switch⟩ else ⟨[(switch, none)], none⟩

def withValue (switch : Switch) (text : String) : Cluster := ⟨[(switch, some (.ofText text))], none⟩

def behind (switch : Switch) (rest : Cluster) : Cluster :=
  { rest with complete := (switch, none) :: rest.complete }

def completed (cluster : Cluster) (switch : Switch) (text : String) :
    List (Switch × Option SwitchValue) :=
  cluster.complete ++ [(switch, some (.given text))]

/-- The switches that begin with one letter's; the text is what follows that letter: its value, or
further letters. -/
def ofLetters (scope : Scope) (switch : Switch) : List Char → Except UsageError Cluster
  | [] => .ok (single switch)
  | letter :: letters =>
      if switch.takesValue then .ok (withValue switch (String.ofList (letter :: letters)))
      else match scope.switch? (String.ofList ['-', letter]) with
        | some next => (ofLetters scope next letters).map (behind switch)
        | none => .error (.valueUnexpected switch (String.ofList (letter :: letters)))

def isLetter (spelling : String) : Bool := !isFrontOf "--" spelling

end Cluster

def Written.cluster (scope : Scope) (written : Written) : Except UsageError Cluster :=
  match written.attached with
  | none => .ok (.single written.switch)
  | some text =>
      if written.switch.takesValue then .ok (.withValue written.switch text)
      else if Cluster.isLetter written.spelling && text ≠ "" then
        Cluster.ofLetters scope written.switch text.toList
      else .error (.valueUnexpected written.switch text)

/-- Reads the tokens of a scope. A command takes all that follows it. A divider next to the path
belongs to it, so the reading notes whether the token before was the path. -/
def Reading.read (scope : Scope) : (behindPath : Bool) → List Token → Reading → Except Stop Reading
  | _, [], reading =>
      if scope.operand = .path && reading.path.isNone then .error (.misuse scope .pathMissing)
      else .ok reading
  | _, .unknown text :: rest, reading => read scope false rest (reading.skip text)
  | _, .switch _ written :: rest, reading =>
      match written.cluster scope with
      | .error error => .error (.misuse scope error)
      | .ok found =>
          match found.wanting with
          | none =>
              match reading.takeAll scope found.complete with
              | .ok next => read scope false rest next
              | .error stop => .error stop
          | some switch =>
              match rest with
              | .operand text :: others =>
                  match reading.takeAll scope (found.completed switch text) with
                  | .ok next => read scope false others next
                  | .error stop => .error stop
              | _ => .error (.misuse scope (.valueMissing switch))
  | behindPath, .divider :: rest, reading =>
      match scope.operand with
      | .path =>
          if behindPath || (reading.path.isNone && !rest.isEmpty) then read scope false rest reading
          else read scope false rest (reading.skip "--")
      | .command name choices =>
          if rest.isEmpty then .ok (reading.skip "--")
          else .error (.misuse scope (.invalidChoice name "--" (choices.map Prod.fst)))
      | .nothing => read scope false rest (reading.skip "--")
  | _, .operand text :: rest, reading =>
      match scope.operand, reading.path with
      | .path, none => read scope true rest { reading with path := some text }
      | .command name choices, _ =>
          match choices.lookup text with
          | some command => .ok { reading with command := some (command, rest.map Token.text) }
          | none => .error (.misuse scope (.invalidChoice name text (choices.map Prod.fst)))
      | _, _ => read scope false rest (reading.skip text)

def readScope (scope : Scope) (given : Given) (arguments : List String) : Except Stop Reading :=
  match tokens scope arguments with
  | .error error => .error (.misuse scope error)
  | .ok tokens => Reading.read scope false tokens (.start given)

inductive Command where
  | outline (path : String)
  | config
  | configShow
  | configPath
  | version
deriving Repr, DecidableEq

structure Invocation where
  given : Given
  /-- Without a command there is only help to show. -/
  command : Option Command
deriving Repr, DecidableEq

def Scope.command? (scope : Scope) (path : Option String) : Option Command :=
  match scope with
  | .program => none
  | .outline => path.map .outline
  | .config => some .config
  | .configShow => some .configShow
  | .configPath => some .configPath
  | .version => some .version

def follow : (depth : Nat) → Scope → Given → List String → Except Stop (Invocation × List String)
  | 0, scope, given, arguments => .ok (⟨given, scope.command? none⟩, arguments)
  | depth + 1, scope, given, arguments =>
      match readScope scope given arguments with
      | .error stop => .error stop
      | .ok reading =>
          match reading.command with
          | none => .ok (⟨reading.given, scope.command? reading.path⟩, reading.surplus)
          | some (command, rest) =>
              (follow depth command reading.given rest).map fun below =>
                (below.1, reading.surplus ++ below.2)

/-- What the arguments ask for. Commands stand at most two deep below the program. -/
def invocation (arguments : List String) : Except Stop Invocation :=
  match follow 3 .program .nothing arguments with
  | .error stop => .error stop
  | .ok (found, []) => .ok found
  | .ok (_, surplus) => .error (.misuse .program (.unrecognized surplus))

end CommentOutline.CommandLine
