import CommentOutline.CommandLine.Places

set_option autoImplicit false

/-! The program: it looks at the files that a run may need, runs, and carries out what the run
leaves. -/

namespace CommentOutline.CommandLine

open FileTree (Path Place Tree Entry)

def nameOf (place : Place) : String := (Path.ofPlace place).toString

def entryNow? (place : Place) : IO (Option Entry) := do
  if ← ((← IO.currentDir) / nameOf place).isDir then return some .directory
  try
    let content ← IO.FS.readBinFile (nameOf place)
    return some (.file content.toList)
  catch _ => return none

def treeNow (places : List Place) : IO Tree :=
  places.foldlM (fun tree place => do
    match ← entryNow? place with
    | some entry => return tree.put place entry
    | none => return tree) .empty

/-- The variables in a block where a zero byte stands behind each. -/
def variablesOf (block : List UInt8) : List Config.Variable :=
  (block.splitOnP fun byte => byte == 0).filterMap fun bytes =>
    match Text.Utf8.decode bytes with
    | .error _ => none
    | .ok cs =>
        match cutAtEquals (String.ofList cs) with
        | (name, some value) => some ⟨name, value⟩
        | (_, none) => none

def environmentNow : IO (List Config.Variable) := do
  try
    let block ← IO.FS.readBinFile "/proc/self/environ"
    return variablesOf block.toList
  catch _ => return []

def perform (arguments : List String) : IO UInt32 := do
  let directory := (Path.ofString (← IO.currentDir).toString).parts
  let tree ← treeNow (places directory arguments)
  let outcome := run ⟨tree, directory, ← environmentNow, .standard⟩ arguments
  for (place, content) in outcome.tree.changedSince tree do
    IO.FS.writeBinFile (nameOf place) ⟨content.toArray⟩
  IO.print outcome.output
  IO.eprint outcome.errors
  match outcome.result with
  | .ok code => return UInt32.ofNat code
  | .error failure =>
      IO.eprintln failure.message
      return 1

end CommentOutline.CommandLine

def main (arguments : List String) : IO UInt32 := CommentOutline.CommandLine.perform arguments
