import CommentOutline.Document
import CommentOutline.Provider.Emitter

set_option autoImplicit false

/-! The provider of an outline to a host application. It owns a document, builds its outline anew
when it is asked to, and tells its listeners. Readers see the outline of the last build that
succeeded. -/

namespace CommentOutline

open Outline (Builder Node)

structure Provider (Listener : Type) where
  document : Document
  style : Comment.Style
  hasNavigator : Bool
  builder : Builder
  /-- The builder's root list that readers see. -/
  shown : Nat
  changed : Provider.Emitter Listener

structure HostCommand where
  name : String
  title : String
  arguments : List Config.Value
deriving Repr, DecidableEq

structure TreeItem where
  label : String
  collapsed : Bool
  command : HostCommand
deriving Repr, DecidableEq

def jumpCommand : String := "comment-explorer.jumpToLine"

def treeItem (node : Node) : TreeItem :=
  ⟨node.label, !node.isLeaf, ⟨jumpCommand, "", [.int node.line]⟩⟩

/-- A place for the caret, in a line and a column. The line is what the jump asked for, whatever
that is. -/
structure Caret where
  line : Config.Value
  column : Int
deriving Repr, DecidableEq

namespace Provider

variable {Listener : Type}

/-- Builds the outline of the document; readers see it if the build succeeds. -/
def parse (provider : Provider Listener) : Provider Listener × Option Failure :=
  match provider.builder.build (provider.document.scan provider.style) with
  | (builder, none) => ({ provider with builder := builder, shown := builder.hold }, none)
  | (builder, some error) => ({ provider with builder := builder }, some (.build error))

def create (document : Document) (settings : Comment.Settings) (hasNavigator : Bool) :
    Except Failure (Provider Listener) :=
  match settings.check with
  | .error error => .error (.settings error)
  | .ok style =>
      match parse ⟨document, style, hasNavigator, .start style.separator, 0, .silent⟩ with
      | (provider, none) => .ok provider
      | (_, some failure) => .error failure

def roots (provider : Provider Listener) : List Node := provider.builder.held provider.shown

def setText (provider : Provider Listener) (text : String) : Provider Listener :=
  { provider with document := provider.document.setText text }

/-- Builds the outline anew. The answer lists the listeners to call. -/
def refresh (provider : Provider Listener) : Provider Listener × Except Failure (List Listener) :=
  match provider.parse with
  | (next, none) => (next, .ok next.changed.fire)
  | (next, some failure) => (next, .error failure)

def saved (provider : Provider Listener) (own : Bool) :
    Provider Listener × Except Failure (List Listener) :=
  if own then provider.refresh else (provider, .ok [])

/-- The children of the node at the end of a path; the empty path gives the roots. -/
def children? (provider : Provider Listener) (path : List Int) : Option (List Node) :=
  match path with
  | [] => some provider.roots
  | _ => (Outline.descend? provider.roots path).map Node.children

def jump (provider : Provider Listener) (line : Config.Value) : Option Caret :=
  if provider.hasNavigator then some ⟨line, 0⟩ else none

/-- Runs a command. Only the jump command does anything, and it takes one argument. -/
def execute (provider : Provider Listener) (command : HostCommand) :
    Except Failure (Option Caret) :=
  if command.name = jumpCommand then
    match command.arguments with
    | [line] => .ok (provider.jump line)
    | _ => .error .argumentCount
  else .ok none

def subscribe (provider : Provider Listener) (listener : Listener) :
    Provider Listener × Subscription Listener :=
  let added := provider.changed.subscribe listener
  ({ provider with changed := added.1 }, added.2)

def unsubscribe [BEq Listener] (provider : Provider Listener)
    (subscription : Subscription Listener) : Provider Listener :=
  { provider with changed := provider.changed.unsubscribe subscription }

end Provider

end CommentOutline
