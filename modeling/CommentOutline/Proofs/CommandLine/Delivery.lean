import CommentOutline.CommandLine.Run
import CommentOutline.Proofs.CommandLine.Accepted
import CommentOutline.Proofs.FileTree.Writing
import CommentOutline.Proofs.Outline.Legible
import CommentOutline.Proofs.Text.Held

set_option autoImplicit false

/-! What runs of the program do to the file tree. Only an outline that goes to a file changes
anything. The file is emptied before it is known whether the outline has bytes, and the word of it
comes last; so a run that fails may leave a changed file. The condition under which none does, and
what is written is what would be printed, is exact. -/

namespace CommentOutline

/-! ### Runs with notices -/

namespace Noted

variable {α β γ : Type}

theorem result_andThen_eq_ok {first : Noted α} {next : α → Noted β} {value : β}
    (came : (first.andThen next).result = .ok value) :
    ∃ middle, first.result = .ok middle ∧ (next middle).result = .ok value := by
  unfold andThen at came
  split at came
  · rename_i middle found
    exact ⟨middle, found, came⟩
  · cases came

theorem result_andThen {first : Noted α} {middle : α} (next : α → Noted β)
    (found : first.result = .ok middle) :
    (first.andThen next).result = (next middle).result := by
  simp only [andThen, found]

end Noted

/-! ### Empty renderings -/

theorem Format.render_eq_empty_iff (format : Format) (standIns : Text.StandIns) (title : String)
    (forest : List Outline.Node) :
    format.render standIns title forest = "" ↔
      format ∈ [Format.text, Format.markdown] ∧ forest = [] := by
  cases format with
  | text =>
      rw [render, Outline.renderText_eq, Outline.rendering_eq_empty_iff]
      simp
  | markdown =>
      rw [render, Outline.renderMarkdown_eq, Outline.rendering_eq_empty_iff]
      simp
  | json =>
      refine iff_of_false ?_ (by simp)
      rw [render, ← String.toList_eq_nil_iff, Json.renderBy, String.toList_ofList,
        Outline.forestValue, Json.write]
      simp
  | html =>
      refine iff_of_false ?_ (by simp)
      rw [render, Html.render, ← String.toList_eq_nil_iff, String.toList_ofList, Html.chars,
        Html.pagePieces]
      simp [Html.Piece.chars]

namespace CommandLine

open FileTree (Path Place Tree)
open Text (StandIns)

variable {here : Surroundings} {given : Given} {arguments : List String} {name : String}
variable {standIns : StandIns} {content : String} {path : Path} {place : Place}

/-! ### Printing -/

def Surroundings.Prints (here : Surroundings) (standIns : StandIns) (text : String) : Prop :=
  here.machine.console.refusal? (standIns.points text) = none

theorem Surroundings.print_of_prints {text : String} (prints : here.Prints standIns text)
    (tree : Tree) : here.print tree standIns text = ⟨.ok 0, text ++ "\n", "", tree⟩ := by
  rw [print, show here.machine.console.refusal? (standIns.points text) = none from prints]

theorem Surroundings.print_of_not_prints {text : String} (refused : ¬ here.Prints standIns text)
    (tree : Tree) :
    ∃ message, here.print tree standIns text = ⟨.error (.print message), "", "", tree⟩ := by
  obtain ⟨message, why⟩ := Option.ne_none_iff_exists'.mp refused
  exact ⟨message, by rw [print, why]⟩

theorem Surroundings.tree_print (here : Surroundings) (tree : Tree) (standIns : StandIns)
    (text : String) : (here.print tree standIns text).tree = tree := by
  unfold print
  split <;> rfl

theorem Surroundings.prints_of_ascii {text : String}
    (ascii : ∀ c ∈ text.toList, c.toNat < 128) : here.Prints [] text :=
  here.machine.console.plain _ ascii

/-! ### Delivery -/

theorem deliver_without_output (noOutput : given.output = none)
    (printable : content = "" ∨ here.Prints standIns content) :
    ∃ errors, deliver here given standIns content =
      ⟨.ok 0, if content = "" then "" else content ++ "\n", errors, here.tree⟩ := by
  rw [deliver, noOutput]
  by_cases nothing : content = ""
  · rw [if_neg (not_not_intro nothing), if_pos nothing]
    exact ⟨_, rfl⟩
  · dsimp only
    rw [if_pos nothing, if_neg nothing, here.print_of_prints (printable.resolve_left nothing)]
    exact ⟨_, rfl⟩

theorem printable_of_deliver (noOutput : given.output = none)
    (success : (deliver here given standIns content).result = .ok 0) :
    content = "" ∨ here.Prints standIns content := by
  by_contra neither
  obtain ⟨something, refused⟩ := not_or.mp neither
  obtain ⟨message, failed⟩ := here.print_of_not_prints refused here.tree
  rw [deliver, noOutput] at success
  dsimp only at success
  rw [if_pos something, failed] at success
  cases success

/-- Nobody is to be told where the content has gone, or they can be. -/
def Told (here : Surroundings) (quiet : Bool) (path : Path) : Prop :=
  quiet = true ∨ here.Prints [] ("Wrote " ++ path.toString)

variable {quiet : Bool} {bytes : List UInt8}

theorem deliverTo_of_run {run : Text.HalfRun}
    (opened : here.tree.writable here.directory path = .ok place)
    (failed : Text.Utf8.encodePoints (standIns.points (content ++ "\n")) = .error run) :
    deliverTo here quiet standIns content path =
      ⟨.error (.encode run), "", "", here.tree.put place (.file [])⟩ := by
  rw [deliverTo, opened]
  dsimp only
  rw [failed]

/-- A content with bytes is in the file, whether or not someone can be told. -/
theorem deliverTo_of_bytes (quiet : Bool)
    (opened : here.tree.writable here.directory path = .ok place)
    (encoded : Text.Utf8.encodePoints (standIns.points (content ++ "\n")) = .ok bytes) :
    (deliverTo here quiet standIns content path).tree = here.tree.put place (.file bytes) ∧
      ((deliverTo here quiet standIns content path).result = .ok 0 ↔ Told here quiet path) := by
  rw [deliverTo, opened]
  dsimp only
  rw [encoded]
  dsimp only
  rw [FileTree.Tree.put_put]
  cases quiet with
  | true => exact ⟨rfl, iff_of_true rfl (Or.inl rfl)⟩
  | false =>
      rw [if_neg Bool.false_ne_true]
      refine ⟨here.tree_print _ _ _, ?_⟩
      by_cases prints : here.Prints [] ("Wrote " ++ path.toString)
      · rw [here.print_of_prints prints]
        exact iff_of_true rfl (Or.inr prints)
      · obtain ⟨message, refused⟩ :=
          here.print_of_not_prints prints (here.tree.put place (.file bytes))
        rw [refused]
        exact iff_of_false (fun success => nomatch success)
          (not_or.mpr ⟨Bool.false_ne_true, prints⟩)

theorem deliverTo_not_opened {error : FileTree.FileError}
    (closed : here.tree.writable here.directory path = .error error) :
    deliverTo here quiet standIns content path = ⟨.error (.write error), "", "", here.tree⟩ := by
  rw [deliverTo, closed]

theorem exists_of_deliverTo
    (success : (deliverTo here quiet standIns content path).result = .ok 0) :
    ∃ place bytes, here.tree.writable here.directory path = .ok place ∧
      Text.Utf8.encodePoints (standIns.points (content ++ "\n")) = .ok bytes ∧
      Told here quiet path := by
  cases opened : here.tree.writable here.directory path with
  | error error =>
      rw [deliverTo_not_opened opened] at success
      cases success
  | ok place =>
      cases encoded : Text.Utf8.encodePoints (standIns.points (content ++ "\n")) with
      | error run =>
          rw [deliverTo_of_run opened encoded] at success
          cases success
      | ok bytes =>
          exact ⟨place, bytes, rfl, rfl, (deliverTo_of_bytes _ opened encoded).2.mp success⟩

/-! ### Whole runs -/

theorem finish_eq (here : Surroundings) (verbose : Bool) (run : Noted Outcome) :
    (finish here verbose run).tree = (outcomeOf here run).tree ∧
      (finish here verbose run).output = (outcomeOf here run).output ∧
      ((finish here verbose run).result = .ok 0 ↔ (outcomeOf here run).result = .ok 0) := by
  unfold finish
  cases verbose with
  | true => exact ⟨rfl, rfl, Iff.rfl⟩
  | false =>
      rw [if_neg Bool.false_ne_true]
      cases result : (outcomeOf here run).result with
      | ok code => exact ⟨rfl, rfl, by rw [result]⟩
      | error failure =>
          exact ⟨rfl, rfl, iff_of_false (by simp) fun success => nomatch success⟩

theorem outcomeOf_outline {ready : Except String Sheet}
    (found : (prepared here given name).result = .ok ready) :
    outcomeOf here (runOutline here given name) = handOver here given name ready := by
  rw [outcomeOf, runOutline, Noted.result_andThen _ found, Noted.done]

theorem outcomeOf_outline_of_error {failure : Failure}
    (failed : (prepared here given name).result = .error failure) :
    outcomeOf here (runOutline here given name) = ⟨.error failure, "", "", here.tree⟩ := by
  simp only [outcomeOf, runOutline, Noted.andThen, failed]

/-- Only an outline that goes to a file can change the tree. -/
theorem tree_of_runCommand (here : Surroundings) (given : Given) (command : Command) :
    (outcomeOf here (runCommand here given command)).tree = here.tree ∨
      ∃ name target sheet place, command = .outline name ∧ given.output = some target ∧
        (prepared here given name).result = .ok (.ok sheet) ∧
        here.tree.writable here.directory (.ofString target) = .ok place := by
  cases command with
  | outline name =>
      rw [runCommand]
      cases found : (prepared here given name).result with
      | error failure =>
          rw [outcomeOf_outline_of_error found]
          exact Or.inl rfl
      | ok ready =>
          rw [outcomeOf_outline found]
          cases ready with
          | error complaint => exact Or.inl rfl
          | ok sheet =>
              rw [handOver, deliver]
              cases output : given.output with
              | none =>
                  dsimp only
                  split
                  · exact Or.inl (here.tree_print _ _ _)
                  · exact Or.inl rfl
              | some target =>
                  dsimp only
                  cases opened : here.tree.writable here.directory (.ofString target) with
                  | error error => exact Or.inl (by rw [deliverTo_not_opened opened])
                  | ok place => exact Or.inr ⟨name, target, sheet, place, rfl, rfl, found, opened⟩
  | config => exact Or.inl rfl
  | version => exact Or.inl (here.tree_print _ _ _)
  | configShow =>
      left
      rw [runCommand, runConfigShow, outcomeOf]
      split
      · rename_i outcome came
        obtain ⟨config, -, came⟩ := Noted.result_andThen_eq_ok came
        cases shown : showConfig config with
        | error failure =>
            rw [shown] at came
            cases came
        | ok text =>
            rw [shown] at came
            cases came
            exact here.tree_print _ _ _
      · rfl
  | configPath =>
      left
      rw [runCommand, runConfigPath]
      split
      · rfl
      · dsimp only
        split
        · exact here.tree_print _ _ _
        · rfl
      · split
        · exact here.tree_print _ _ _
        · rfl

theorem run_of_outline (asked : invocation arguments = .ok ⟨given, some (.outline name)⟩) :
    run here arguments = finish here given.verbose (runOutline here given name) := by
  simp only [run, asked, runCommand]

theorem tree_of_run (here : Surroundings) (arguments : List String) :
    (run here arguments).tree = here.tree ∨
      ∃ given name target sheet place,
        invocation arguments = .ok ⟨given, some (.outline name)⟩ ∧ given.output = some target ∧
        (prepared here given name).result = .ok (.ok sheet) ∧
        here.tree.writable here.directory (.ofString target) = .ok place := by
  unfold run
  split
  · rename_i stop _
    cases stop <;> exact Or.inl rfl
  · exact Or.inl rfl
  · rename_i given command asked
    rw [(finish_eq here given.verbose _).1]
    rcases tree_of_runCommand here given command with same | opened
    · exact Or.inl same
    · obtain ⟨name, target, sheet, place, rfl, opened⟩ := opened
      exact Or.inr ⟨given, name, target, sheet, place, asked, opened⟩

theorem run_of_prepared (here : Surroundings) {target : String} {sheet : Sheet}
    (asked : invocation arguments = .ok ⟨given, some (.outline name)⟩)
    (output : given.output = some target)
    (found : (prepared here given name).result = .ok (.ok sheet)) :
    let delivered := deliverTo here given.quiet sheet.standIns
      (sheet.content (Path.ofString name).toString) (.ofString target)
    (run here arguments).tree = delivered.tree ∧
      ((run here arguments).result = .ok 0 ↔ delivered.result = .ok 0) := by
  obtain ⟨tree, -, result⟩ := finish_eq here given.verbose (runOutline here given name)
  rw [outcomeOf_outline found, handOver, deliver, output] at tree result
  rw [run_of_outline asked]
  exact ⟨tree, result⟩

theorem exists_sheet_of_run
    (asked : invocation arguments = .ok ⟨given, some (.outline name)⟩)
    (success : (run here arguments).result = .ok 0) :
    ∃ sheet, (prepared here given name).result = .ok (.ok sheet) := by
  rw [run_of_outline asked, (finish_eq here given.verbose _).2.2] at success
  cases found : (prepared here given name).result with
  | error failure =>
      rw [outcomeOf_outline_of_error found] at success
      cases success
  | ok ready =>
      rw [outcomeOf_outline found] at success
      cases ready with
      | error complaint => cases success
      | ok sheet => exact ⟨sheet, rfl⟩

theorem run_without_output (here : Surroundings) {sheet : Sheet}
    (asked : invocation arguments = .ok ⟨given, some (.outline name)⟩)
    (noOutput : given.output = none)
    (found : (prepared here given name).result = .ok (.ok sheet)) :
    let content := sheet.content (Path.ofString name).toString
    ((run here arguments).result = .ok 0 → content = "" ∨ here.Prints sheet.standIns content) ∧
      ((content = "" ∨ here.Prints sheet.standIns content) →
        (run here arguments).result = .ok 0 ∧ (run here arguments).tree = here.tree ∧
          (run here arguments).output = if content = "" then "" else content ++ "\n") := by
  obtain ⟨tree, text, result⟩ := finish_eq here given.verbose (runOutline here given name)
  rw [outcomeOf_outline found, handOver] at tree text result
  rw [run_of_outline asked]
  constructor
  · exact fun success => printable_of_deliver noOutput (result.mp success)
  · intro printable
    obtain ⟨errors, printed⟩ := deliver_without_output noOutput printable
    rw [printed] at tree text result
    exact ⟨result.mpr rfl, tree, text⟩

/-! ### All or nothing -/

/-- One run puts into a file what another one, which changes nothing, puts out. Where that is
nothing at all, the file holds a line break. -/
structure WrittenAsPrinted (here : Surroundings) (target : Path) (written printed : Outcome) :
    Prop where
  elsewhere : ∃ place, here.tree.locate here.directory target = .ok place ∧
    ∀ other, other ≠ place → written.tree.entry? other = here.tree.entry? other
  succeeds : printed.result = .ok 0
  unchanged : printed.tree = here.tree
  content : written.tree.read here.directory target =
    .ok (Text.Utf8.encode (if printed.output = "" then "\n" else printed.output).toList)

/-- A run changes nothing unless it succeeds. The outline command with an output changes the file
named last and no other, and puts into it what the same arguments without the output would have it
print; where they print nothing, since there are no annotations to show as text or in markdown, it
is a line break. -/
structure AllOrNothing (here : Surroundings) (arguments : List String) : Prop where
  nothing : (run here arguments).result ≠ .ok 0 →
    ∀ place, Tree.entry? (run here arguments).tree place = here.tree.entry? place
  all : ∀ given name target, invocation arguments = .ok ⟨given, some (.outline name)⟩ →
    given.output = some target → (run here arguments).result = .ok 0 →
      WrittenAsPrinted here (.ofString target) (run here arguments)
          (run here (withoutOutput arguments)) ∧
        ((run here (withoutOutput arguments)).output = "" ↔
          ∃ format ∈ [Format.text, Format.markdown], ∃ standIns,
            (prepared here given name).result = .ok (.ok ⟨format, standIns, []⟩))

/-- The ways in which a delivery into an opened file is all or nothing: the content is written and
told of, and could be printed; or it cannot be told of, but the file held it before; or it has no
bytes, but the file was there and empty before. -/
inductive Safe (here : Surroundings) (quiet : Bool) (standIns : StandIns) (content : String)
    (path : Path) (place : Place) : Prop
  | all {bytes : List UInt8} :
      Text.Utf8.encodePoints (standIns.points (content ++ "\n")) = .ok bytes →
      Told here quiet path → (content = "" ∨ here.Prints standIns content) →
      Safe here quiet standIns content path place
  | untold {bytes : List UInt8} :
      Text.Utf8.encodePoints (standIns.points (content ++ "\n")) = .ok bytes →
      ¬ Told here quiet path → here.tree.entry? place = some (.file bytes) →
      Safe here quiet standIns content path place
  | unencoded {run : Text.HalfRun} :
      Text.Utf8.encodePoints (standIns.points (content ++ "\n")) = .error run →
      here.tree.entry? place = some (.file []) →
      Safe here quiet standIns content path place

theorem entry?_put_same {tree : Tree} {entry : FileTree.Entry} (below : place ≠ [])
    (held : tree.entry? place = some entry) (other : Place) :
    Tree.entry? (tree.put place entry) other = tree.entry? other := by
  by_cases same : other = place
  · rw [same, FileTree.Tree.entry?_put_self below, held]
  · exact FileTree.Tree.entry?_put_other same

theorem append_break_ne_empty (content : String) : content ++ "\n" ≠ "" := by
  rw [Ne, ← String.toList_eq_nil_iff, String.toList_append]
  exact List.append_ne_nil_of_right_ne_nil _ (by decide)

variable {target : String} {sheet : Sheet}

theorem entry?_run_of_safe (asked : invocation arguments = .ok ⟨given, some (.outline name)⟩)
    (output : given.output = some target)
    (found : (prepared here given name).result = .ok (.ok sheet))
    (opened : here.tree.writable here.directory (.ofString target) = .ok place)
    (safe : Safe here given.quiet sheet.standIns (sheet.content (Path.ofString name).toString)
      (.ofString target) place)
    (failed : (run here arguments).result ≠ .ok 0) (other : Place) :
    Tree.entry? (run here arguments).tree other = here.tree.entry? other := by
  obtain ⟨tree, result⟩ := run_of_prepared here asked output found
  have below := FileTree.Tree.ne_nil_of_writable opened
  rw [tree]
  cases safe with
  | all encoded told _ =>
      exact absurd (result.mpr ((deliverTo_of_bytes _ opened encoded).2.mpr told)) failed
  | untold encoded _ held =>
      rw [(deliverTo_of_bytes _ opened encoded).1]
      exact entry?_put_same below held other
  | unencoded unencoded held =>
      rw [deliverTo_of_run opened unencoded]
      exact entry?_put_same below held other

/-- Two calls that differ in the output only: one writes what the other prints, and the other prints
nothing exactly if there is nothing to show in a format without a frame. -/
theorem written_as_printed {others : List String} {bytes : List UInt8}
    (asked : invocation arguments = .ok ⟨given, some (.outline name)⟩)
    (output : given.output = some target)
    (found : (prepared here given name).result = .ok (.ok sheet))
    (opened : here.tree.writable here.directory (.ofString target) = .ok place)
    (encoded : Text.Utf8.encodePoints (sheet.standIns.points
      (sheet.content (Path.ofString name).toString ++ "\n")) = .ok bytes)
    (printable : sheet.content (Path.ofString name).toString = "" ∨
      here.Prints sheet.standIns (sheet.content (Path.ofString name).toString))
    (asked' : invocation others = .ok ⟨given.withoutOutput, some (.outline name)⟩) :
    WrittenAsPrinted here (.ofString target) (run here arguments) (run here others) ∧
      ((run here others).output = "" ↔ ∃ format ∈ [Format.text, Format.markdown], ∃ standIns,
        (prepared here given name).result = .ok (.ok ⟨format, standIns, []⟩)) := by
  obtain ⟨success, unchanged, printed⟩ :=
    (run_without_output here asked' rfl found).2 printable
  have written : (run here arguments).tree = here.tree.put place (.file bytes) :=
    (run_of_prepared here asked output found).1.trans (deliverTo_of_bytes _ opened encoded).1
  have empty : (run here others).output = "" ↔
      sheet.content (Path.ofString name).toString = "" := by
    rw [printed]
    split
    · rename_i nothing
      exact iff_of_true rfl nothing
    · rename_i something
      exact iff_of_false (append_break_ne_empty _) something
  refine ⟨⟨⟨place, (FileTree.Tree.writable_eq_ok_iff.mp opened).1, ?_⟩, success, unchanged, ?_⟩, ?_⟩
  · intro other differs
    rw [written, FileTree.Tree.entry?_put_other differs]
  · rw [written, FileTree.Tree.read_put opened, ← (Text.encodePoints_eq_ok_iff.mp encoded).2]
    split
    · rename_i nothing
      rw [empty.mp nothing, String.empty_append]
    · rename_i something
      rw [printed, if_neg (mt empty.mpr something)]
  · rw [empty, Sheet.content, Format.render_eq_empty_iff]
    constructor
    · rintro ⟨frameless, nothing⟩
      exact ⟨sheet.format, frameless, sheet.standIns, nothing ▸ found⟩
    · rintro ⟨format, frameless, standIns, found'⟩
      cases found.symm.trans found'
      exact ⟨frameless, rfl⟩

theorem safe_of_allOrNothing (law : AllOrNothing here arguments)
    (asked : invocation arguments = .ok ⟨given, some (.outline name)⟩)
    (output : given.output = some target)
    (found : (prepared here given name).result = .ok (.ok sheet))
    (opened : here.tree.writable here.directory (.ofString target) = .ok place) :
    Safe here given.quiet sheet.standIns (sheet.content (Path.ofString name).toString)
      (.ofString target) place := by
  obtain ⟨tree, result⟩ := run_of_prepared here asked output found
  have below := FileTree.Tree.ne_nil_of_writable opened
  cases encoded : Text.Utf8.encodePoints (sheet.standIns.points
      (sheet.content (Path.ofString name).toString ++ "\n")) with
  | error run =>
      rw [deliverTo_of_run opened encoded] at tree result
      have kept := law.nothing (fun success => nomatch result.mp success) place
      rw [tree, FileTree.Tree.entry?_put_self below] at kept
      exact .unencoded encoded kept.symm
  | ok bytes =>
      obtain ⟨written, told_iff⟩ := deliverTo_of_bytes given.quiet opened encoded
      by_cases told : Told here given.quiet (.ofString target)
      · have success := result.mpr (told_iff.mpr told)
        have printed := (law.all given name target asked output success).1.succeeds
        exact .all encoded told ((run_without_output here (invocation_withoutOutput asked) rfl
          found).1 printed)
      · have kept := law.nothing (mt (fun success => told_iff.mp (result.mp success)) told) place
        rw [tree, written, FileTree.Tree.entry?_put_self below] at kept
        exact .untold encoded told kept.symm

theorem allOrNothing_of_safe (safe : ∀ given name target sheet place,
    invocation arguments = .ok ⟨given, some (.outline name)⟩ → given.output = some target →
      (prepared here given name).result = .ok (.ok sheet) →
      here.tree.writable here.directory (.ofString target) = .ok place →
      Safe here given.quiet sheet.standIns (sheet.content (Path.ofString name).toString)
        (.ofString target) place) :
    AllOrNothing here arguments where
  nothing := by
    intro failed other
    rcases tree_of_run here arguments with same | opened
    · rw [same]
    · obtain ⟨given, name, target, sheet, place, asked, output, found, opened⟩ := opened
      exact entry?_run_of_safe asked output found opened
        (safe given name target sheet place asked output found opened) failed other
  all := by
    intro given name target asked output success
    obtain ⟨sheet, found⟩ := exists_sheet_of_run asked success
    obtain ⟨place, bytes, opened, encoded, told⟩ :=
      exists_of_deliverTo ((run_of_prepared here asked output found).2.mp success)
    cases safe given name target sheet place asked output found opened with
    | all encoded _ printable =>
        exact written_as_printed asked output found opened encoded printable
          (invocation_withoutOutput asked)
    | untold _ untold _ => exact absurd told untold
    | unencoded unencoded _ => cases encoded.symm.trans unencoded

/-- A run is all or nothing exactly if it delivers nothing to a file, or does so safely. -/
theorem allOrNothing_iff (here : Surroundings) (arguments : List String) :
    AllOrNothing here arguments ↔ ∀ given name target sheet place,
      invocation arguments = .ok ⟨given, some (.outline name)⟩ → given.output = some target →
      (prepared here given name).result = .ok (.ok sheet) →
      here.tree.writable here.directory (.ofString target) = .ok place →
      Safe here given.quiet sheet.standIns (sheet.content (Path.ofString name).toString)
        (.ofString target) place :=
  ⟨fun law _ _ _ _ _ asked output found opened =>
    safe_of_allOrNothing law asked output found opened, allOrNothing_of_safe⟩

/-- A file whose only annotation is a high half on its own in UTF-7, and a file to keep. -/
def strayed : Surroundings :=
  ⟨⟨[(["a.c"], .file (Text.Utf8.encode "// #-- +2AA-".toList)),
    (["keep"], .file (Text.Utf8.encode "x".toList))]⟩, [], [], .standard⟩

/-- The run fails, but the file that it was to write into is empty. -/
theorem not_allOrNothing_strayed :
    let arguments := ["outline", "a.c", "--encoding", "utf-7", "-o", "keep"]
    (run strayed arguments).result = .ok 1 ∧
      (run strayed arguments).errors = "Error: 'utf-8' codec can't encode character " ++
        "'\\ud800' in position 0: surrogates not allowed\n" ∧
      strayed.tree.entry? ["keep"] = some (.file [120]) ∧
      Tree.entry? (run strayed arguments).tree ["keep"] = some (.file []) ∧
      ¬ AllOrNothing strayed arguments := by
  intro arguments
  have failed : (run strayed arguments).result = .ok 1 := by decide +kernel
  have before : strayed.tree.entry? ["keep"] = some (.file [120]) := by decide +kernel
  have after : Tree.entry? (run strayed arguments).tree ["keep"] = some (.file []) := by
    decide +kernel
  refine ⟨failed, by decide +kernel, before, after, fun law => ?_⟩
  have kept := law.nothing (by rw [failed]; decide) ["keep"]
  rw [before, after] at kept
  cases kept

/-! ### Known encodings -/

theorem exists_document_of_prepared
    (found : (prepared here given name).result = .ok (.ok sheet)) :
    ∃ others document, readDocument here given others (.ofString name) =
      .ok (document, sheet.standIns) := by
  unfold prepared at found
  dsimp only at found
  split at found
  · cases found
  · obtain ⟨config, -, found⟩ := Noted.result_andThen_eq_ok found
    obtain ⟨annotations, -, found⟩ := Noted.result_andThen_eq_ok found
    obtain ⟨setting, -, found⟩ := Noted.result_andThen_eq_ok found
    split at found
    · split at found <;> cases found
    · obtain ⟨⟨document, standIns⟩, read, found⟩ := Noted.result_andThen_eq_ok found
      obtain ⟨forest, -, found⟩ := Noted.result_andThen_eq_ok found
      cases found
      exact ⟨_, document, read⟩

theorem standIns_of_known {others : List Char} {document : Document}
    (known : ∀ encoding, given.encoding = some (.given encoding) →
      (Text.Encoding.ofName? encoding).isSome = true)
    (read : readDocument here given others path = .ok (document, standIns)) : standIns = [] := by
  unfold readDocument at read
  split at read
  · cases read
  · rename_i encoding asked
    have named : (Text.Encoding.ofName? encoding).isSome = true := by
      cases option : given.encoding with
      | none =>
          rw [option] at asked
          cases asked
          decide
      | some word =>
          rw [option, Option.getD_some] at asked
          exact known encoding (asked ▸ option)
    split at read
    · rename_i held found
      cases read
      exact FileTree.Tree.standIns_readHeld named found
    · cases read

/-- With an output in UTF-8, every run is all or nothing whose file has an encoding that is known
here. -/
theorem allOrNothing_of_known (console : here.machine.console = .utf8)
    (known : ∀ given command encoding, invocation arguments = .ok ⟨given, command⟩ →
      given.encoding = some (.given encoding) →
        (Text.Encoding.ofName? encoding).isSome = true) :
    AllOrNothing here arguments := by
  have prints : ∀ text, here.Prints [] text := by
    intro text
    show here.machine.console.refusal? (text.toList.map .char) = none
    rw [console]
    exact congrArg (Option.map _) (Text.firstRun?_map_char 0 _)
  refine allOrNothing_of_safe fun given name target sheet place asked _ found _ => ?_
  obtain ⟨others, document, read⟩ := exists_document_of_prepared found
  have nothing : sheet.standIns = [] :=
    standIns_of_known (fun encoding => known given _ encoding asked) read
  rw [nothing]
  exact .all (Text.encodePoints_eq_ok_iff.mpr ⟨fun _ _ => rfl, rfl⟩) (Or.inr (prints _))
    (Or.inr (prints _))

def annotated : Surroundings :=
  ⟨⟨[(["a"], .file (Text.Utf8.encode "//#--x".toList))]⟩, [], [], .standard⟩

/-- The outline of a file may go in the place of the file itself. -/
example : AllOrNothing annotated ["outline", "-oa", "a"] ∧
    (run annotated ["outline", "-oa", "a"]).result = .ok 0 ∧
    (run annotated ["outline", "a"]).output = "x (line 1)\n" := by
  refine ⟨allOrNothing_of_known rfl ?_, by decide +kernel, by decide +kernel⟩
  intro given command encoding asked
  have none_asked : invocation ["outline", "-oa", "a"] =
      .ok ⟨⟨false, false, none, none, some "a", none⟩, some (.outline "a")⟩ := by rfl
  cases asked.symm.trans none_asked
  exact fun option => nomatch option

end CommandLine

end CommentOutline
