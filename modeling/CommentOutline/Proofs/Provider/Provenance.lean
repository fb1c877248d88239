import CommentOutline.Proofs.Comment.Reading
import CommentOutline.Proofs.Comment.Scanning
import CommentOutline.Proofs.Outline.Agreement
import CommentOutline.Proofs.Outline.Origin
import CommentOutline.Proofs.Provider.Showing
import CommentOutline.Provider.Host

set_option autoImplicit false

/-! Where the nodes of an outline come from. Every node of a provider's outline stands for a line
that declares it, every line that matches has one entry, and the command of a tree item takes the
caret to the line of its node. -/

namespace CommentOutline

open Comment (Settings Style check_ofTexts_eq_ok_iff)
open Outline

/-- The line of a node declares the node: a flat entry is the whole payload, an entry on a path has
the labels of the payload, and a group was first needed by the payload. -/
structure Document.Declares (document : Document) (style : Style) (path : List String)
    (node : Node) : Prop where
  inside : 0 ≤ node.line ∧ node.line < document.lineCount
  declared : ∃ payload, document.Matches style node.line payload ∧
    (node.children = [] → path.length = 1 →
      Text.contains payload "::" = false ∧ node.label = payload) ∧
    (node.children = [] → 1 < path.length → Builder.segments "::" payload = path) ∧
    (node.children ≠ [] → LeadsBehind path payload)
  first : node.children ≠ [] → ∀ number payload, number < node.line →
    document.Matches style number payload → ¬ LeadsBehind path payload

namespace Provider

variable {Listener : Type}

theorem exists_create {document : Document} {settings : Settings} {style : Style}
    (accepted : settings.check = .ok style) (standard : style.separator = .token "::")
    (hasNavigator : Bool) :
    ∃ provider : Provider Listener, create document settings hasNavigator = .ok provider ∧
      provider.roots = grouping (document.scan style) ∧ provider.hasNavigator = hasNavigator := by
  obtain ⟨provider, created, shows, -, navigator, -⟩ :=
    exists_create_shows document accepted standard (by decide) hasNavigator
  refine ⟨provider, created, ?_, navigator⟩
  rw [shows.roots_eq_forest, shows.real.forest_eq_grouping]

theorem execute_treeItem (provider : Provider Listener) (node : Node) :
    provider.execute (treeItem node).command =
      .ok (if provider.hasNavigator then some ⟨.int node.line, 0⟩ else none) := by
  rw [execute, treeItem, if_pos rfl]
  rfl

end Provider

namespace Document

theorem declares_of_mem_locatedAll (document : Document) (style : Style)
    {place : List String × Node} (member : place ∈ locatedAll [] (grouping (document.scan style))) :
    document.Declares style place.1 place.2 := by
  by_cases childless : place.2.children = []
  · obtain ⟨pair, inside, sameLine, flat, leaf⟩ := exists_pair_of_entry member childless
    have found := (document.mem_scan_iff style pair.1 pair.2).mp inside
    rw [sameLine] at found
    exact
      { inside := ⟨found.1, found.lt_lineCount⟩
        declared := ⟨pair.1, found, fun _ => flat, fun _ => leaf, fun more => absurd childless more⟩
        first := fun more => absurd childless more }
  · obtain ⟨pair, inside, sameLine, behind, earlier⟩ :=
      exists_pair_of_group (document.scan_ascending style) member childless
    have found := (document.mem_scan_iff style pair.1 pair.2).mp inside
    rw [sameLine] at found
    exact
      { inside := ⟨found.1, found.lt_lineCount⟩
        declared := ⟨pair.1, found, fun none => absurd none childless,
          fun none => absurd none childless, fun _ => behind⟩
        first := fun _ number payload lower other =>
          earlier (payload, number) ((document.mem_scan_iff style payload number).mpr other) lower }

end Document

/-- The outline of a text, under texts that make a pattern and the standard separator: its nodes
stand for the lines that declare them, the lines that match have one entry each, and the command of
a node's tree item reveals its line. -/
theorem create_ofText_declares (text : String) (openers : List String) (marker closer : String)
    (hasNavigator : Bool) (style : Style)
    (accepted : (Settings.ofTexts openers marker "::" closer).check = .ok style) :
    ∃ provider : Provider String,
      Provider.create (.ofText text) (.ofTexts openers marker "::" closer) hasNavigator =
        .ok provider ∧
      (∀ place ∈ locatedAll [] provider.roots,
        (Document.ofText text).Declares style place.1 place.2) ∧
      (∀ number payload, (Document.ofText text).Matches style number payload →
        (locatedAll [] provider.roots).countP
          (fun place => place.2.isLeaf && place.2.line == number) = 1) ∧
      ∀ place ∈ locatedAll [] provider.roots, ∀ host : Host,
        host.reveal (provider.execute (treeItem place.2).command) =
          (if hasNavigator then host.note (.revealed ⟨.int place.2.line, 0⟩) else host,
            .ok .nothing) := by
  have standard : style.separator = .token "::" := by
    obtain ⟨-, rfl⟩ := (check_ofTexts_eq_ok_iff openers marker "::" closer style).mp accepted
    rfl
  obtain ⟨provider, created, roots, navigator⟩ :=
    Provider.exists_create accepted standard hasNavigator
  refine ⟨provider, created, ?_, ?_, ?_⟩
  · rw [roots]
    exact fun place member => (Document.ofText text).declares_of_mem_locatedAll style member
  · intro number payload found
    rw [roots]
    have member := ((Document.ofText text).mem_scan_iff style payload number).mpr found
    exact countP_entries_eq_one ((Document.ofText text).scan_ascending style) member
  · intro place _ host
    rw [provider.execute_treeItem, navigator]
    cases hasNavigator <;> rfl

theorem create_ofText_declares_two_lines :
    (Settings.ofTexts ["//", "/*"] "#--" "::" "*/").check = .ok .standard ∧
    ∃ provider : Provider String,
      Provider.create (.ofText "// #-- P::x\n// #-- y") (.ofTexts ["//", "/*"] "#--" "::" "*/")
        true = .ok provider ∧
      (∀ place ∈ locatedAll [] provider.roots,
        (Document.ofText "// #-- P::x\n// #-- y").Declares .standard place.1 place.2) ∧
      (∀ number payload,
        (Document.ofText "// #-- P::x\n// #-- y").Matches .standard number payload →
        (locatedAll [] provider.roots).countP
          (fun place => place.2.isLeaf && place.2.line == number) = 1) ∧
      ∀ place ∈ locatedAll [] provider.roots, ∀ host : Host,
        host.reveal (provider.execute (treeItem place.2).command) =
          (if true then host.note (.revealed ⟨.int place.2.line, 0⟩) else host, .ok .nothing) :=
  ⟨by rfl, create_ofText_declares _ ["//", "/*"] "#--" "*/" true _ (by rfl)⟩

end CommentOutline
