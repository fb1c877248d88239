import CommentOutline.Provider.Basic

set_option autoImplicit false

/-! A host application at work with a provider: requests, one after the other, and listeners that
answer a change with requests of their own. -/

namespace CommentOutline

open Outline (Brief Node)

namespace Host

inductive Request where
  | setText (text : String)
  | refresh
  | fire
  | jump (line : Config.Value)
  | execute (name : String) (arguments : List Config.Value)
  | activate (path : List Int)
  /-- Empties the list of children that the provider gave out; the empty path means the roots. -/
  | clearCopy (path : List Int)
  | save (own : Bool)
  | roots
  | children (path : List Int)
  | item (path : List Int)
  | subscribe (listener handle : String)
  | unsubscribe (handle : String)
  | listenerCount
  | hold (name : String)
  | held (name : String)
  | forest
deriving Repr, DecidableEq

inductive Reply where
  | nothing
  | flag (value : Bool)
  | number (value : Nat)
  | briefs (nodes : List Brief)
  | forest (nodes : List Node)
  | item (item : TreeItem)
deriving Repr, DecidableEq

inductive Event where
  | fired (listener : String)
  | revealed (caret : Caret)
deriving Repr, DecidableEq

end Host

open Host

structure Host where
  provider : Provider String
  subscriptions : List (String × Provider.Subscription String)
  kept : List (String × Nat)
  events : List Event

namespace Host

def start (provider : Provider String) : Host := ⟨provider, [], [], []⟩

def note (host : Host) (event : Event) : Host := { host with events := host.events ++ [event] }

def withProvider (host : Host) (provider : Provider String) : Host :=
  { host with provider := provider }

abbrev Answer (α : Type) := Host × Except Failure α

def runAll (run : Host → Request → Answer Reply) : List Request → Host → Answer Unit
  | [], host => (host, .ok ())
  | request :: rest, host =>
      match run host request with
      | (next, .ok _) => runAll run rest next
      | (next, .error failure) => (next, .error failure)

/-- Calls listeners, one after the other; one that fails ends the round. -/
def notify (run : Host → Request → Answer Reply) (reactions : String → List Request) :
    List String → Host → Answer Unit
  | [], host => (host, .ok ())
  | listener :: rest, host =>
      match runAll run (reactions listener) (host.note (.fired listener)) with
      | (next, .ok _) => notify run reactions rest next
      | (next, .error failure) => (next, .error failure)

def announce (call : List String → Host → Answer Unit) (reply : Reply) (host : Host) :
    Provider String × Except Failure (List String) → Answer Reply
  | (provider, .error failure) => (host.withProvider provider, .error failure)
  | (provider, .ok listeners) =>
      match call listeners (host.withProvider provider) with
      | (next, .ok _) => (next, .ok reply)
      | (next, .error failure) => (next, .error failure)

def reveal (host : Host) : Except Failure (Option Caret) → Answer Reply
  | .ok (some caret) => (host.note (.revealed caret), .ok .nothing)
  | .ok none => (host, .ok .nothing)
  | .error failure => (host, .error failure)

def found {α : Type} (host : Host) (reply : α → Reply) : Option α → Answer Reply
  | some result => (host, .ok (reply result))
  | none => (host, .error .outOfRange)

def nodeAt? (host : Host) (path : List Int) : Option Node :=
  Outline.descend? host.provider.roots path

def step (call : List String → Host → Answer Unit) (host : Host) : Request → Answer Reply
  | .setText text => (host.withProvider (host.provider.setText text), .ok .nothing)
  | .refresh => announce call .nothing host host.provider.refresh
  | .fire => announce call .nothing host (host.provider, .ok host.provider.changed.fire)
  | .jump line => host.reveal (.ok (host.provider.jump line))
  | .execute name arguments => host.reveal (host.provider.execute ⟨name, "", arguments⟩)
  | .activate path =>
      match host.nodeAt? path with
      | some node => host.reveal (host.provider.execute (treeItem node).command)
      | none => (host, .error .outOfRange)
  | .clearCopy path => host.found (fun _ => .nothing) (host.provider.children? path)
  | .save own => announce call (.flag own) host (host.provider.saved own)
  | .roots => (host, .ok (.briefs (host.provider.roots.map Node.brief)))
  | .children path =>
      host.found (fun nodes => .briefs (nodes.map Node.brief)) (host.provider.children? path)
  | .item path => host.found (fun node => .item (treeItem node)) (host.nodeAt? path)
  | .subscribe listener handle =>
      let added := host.provider.subscribe listener
      ({ host with
          provider := added.1
          subscriptions := (handle, added.2) :: host.subscriptions }, .ok .nothing)
  | .unsubscribe handle =>
      match host.subscriptions.lookup handle with
      | some subscription =>
          (host.withProvider (host.provider.unsubscribe subscription), .ok .nothing)
      | none => (host, .ok .nothing)
  | .listenerCount => (host, .ok (.number host.provider.changed.listenerCount))
  | .hold name => ({ host with kept := (name, host.provider.shown) :: host.kept }, .ok .nothing)
  | .held name =>
      host.found (fun mark => .forest (host.provider.builder.held mark)) (host.kept.lookup name)
  | .forest => (host, .ok (.forest host.provider.roots))

/-- One request. The depth bounds how far listeners may set each other off. -/
def run (reactions : String → List Request) : (depth : Nat) → Host → Request → Answer Reply
  | 0 => step fun _ host => (host, .error .endlessReactions)
  | depth + 1 => step (notify (run reactions depth) reactions)

def session (reactions : String → List Request) (depth : Nat) (host : Host) :
    List Request → List (Except Failure Reply × List Event)
  | [] => []
  | request :: rest =>
      let answer := run reactions depth { host with events := [] } request
      (answer.2, answer.1.events) :: session reactions depth answer.1 rest

end Host

end CommentOutline
