import CommentOutline.Document
import CommentOutline.Proofs.Comment.Scanning
import CommentOutline.Proofs.FileTree.Writing
import CommentOutline.Proofs.Text.Layout
import CommentOutline.Proofs.Text.Utf8

set_option autoImplicit false

/-! Documents read from files. A file is read with every line end as a line feed, and the lines of
the text are the same before and after that, so a document read from a file is like one made from
the text that the file holds. -/

namespace CommentOutline

open FileTree (Path Place Tree)

namespace Text

theorem lineChars_feed (cs : List Char) : lineChars ('\n' :: cs) = [] :: lineChars cs := rfl

theorem lineChars_unifyBreaks (cs : List Char) : lineChars (unifyBreaks cs) = lineChars cs := by
  induction cs using unifyBreaks.induct with
  | case1 => rfl
  | case2 cs ih =>
      have both : lineChars ('\r' :: '\n' :: cs) = [] :: lineChars cs := rfl
      rw [both, ← ih]
      rfl
  | case3 c cs apart ih =>
      rw [unifyBreaks]
      · by_cases carriage : c = '\r'
        · subst c
          have alone : cs.head? ≠ some '\n' := by
            intro feed
            obtain ⟨more, begun⟩ := List.head?_eq_some_iff.mp feed
            exact apart more rfl begun
          rw [if_pos rfl, lineChars_feed, lineChars_carriage alone, ih]
        · rw [if_neg carriage]
          by_cases feed : c = '\n'
          · subst c
            rw [lineChars_feed, lineChars_feed, ih]
          · rw [lineChars_cons carriage feed, lineChars_cons carriage feed, ih]
      · exact apart

theorem unifyBreaks_eq_self {cs : List Char} (plain : ∀ c ∈ cs, c ≠ '\r') :
    unifyBreaks cs = cs := by
  induction cs with
  | nil => rfl
  | cons c cs ih =>
      obtain ⟨other, behind⟩ := List.forall_mem_cons.mp plain
      rw [unifyBreaks, ih behind, if_neg other]
      intro rest first
      exact absurd first other

theorem splitLines_unifyBreaks (cs : List Char) :
    splitLines (String.ofList (unifyBreaks cs)) = splitLines (String.ofList cs) := by
  unfold splitLines
  rw [String.toList_ofList, String.toList_ofList, lineChars_unifyBreaks]

end Text

namespace FileTree.Tree

def HoldsText (tree : Tree) (base : Place) (path : Path) (text : String) : Prop :=
  tree.read base path = .ok (Text.Utf8.encode text.toList)

variable {tree : Tree} {base : Place} {path : Path} {text : String}

theorem HoldsText.readHeld_eq (holds : tree.HoldsText base path text) (codecs : Text.Codecs)
    (others : List Char) :
    tree.readHeld codecs others base path "utf-8" = .ok ⟨Text.unifyBreaks text.toList, []⟩ := by
  have known : Text.Encoding.ofName? "utf-8" = some .utf8 := by decide
  have decoded : Text.Encoding.utf8.decode (Text.Utf8.encode text.toList) = .ok text.toList := by
    unfold Text.Encoding.decode Text.Encoding.decodeUtf8
    rw [Text.Utf8.decode_encode]
  have named : Text.decodeNamed codecs others "utf-8" (Text.Utf8.encode text.toList) =
      .ok ⟨text.toList, []⟩ := by
    unfold Text.decodeNamed
    rw [known]
    dsimp only
    rw [decoded]
    rfl
  unfold readHeld
  rw [holds]
  dsimp only
  rw [named]

theorem HoldsText.readText_eq (holds : tree.HoldsText base path text) (codecs : Text.Codecs) :
    tree.readText codecs base path "utf-8" =
      .ok (String.ofList (Text.unifyBreaks text.toList)) := by
  rw [readText, holds.readHeld_eq]
  rfl

theorem HoldsText.exists_write (holds : tree.HoldsText base path text) (written : String) :
    ∃ later, tree.write base path (Text.Utf8.encode written.toList) = .ok later ∧
      later.HoldsText base path written := by
  obtain ⟨later, done⟩ := Tree.exists_write holds (Text.Utf8.encode written.toList)
  exact ⟨later, done, read_of_write done⟩

end FileTree.Tree

namespace Document

/-- The documents have the same lines, and so the same annotations under every style. -/
structure Alike (first second : Document) : Prop where
  lines : first.lines = second.lines
  scan : ∀ style, first.scan style = second.scan style

theorem alike_of_lines_eq {first second : Document} (same : first.lines = second.lines) :
    first.Alike second where
  lines := same
  scan := by
    intro style
    rw [scan_eq_scanLines, scan_eq_scanLines, same]

variable {codecs : Text.Codecs} {tree : Tree} {base : Place} {path : Path} {text : String}

theorem splitLines_read (text : String) :
    Text.splitLines (String.ofList (Text.unifyBreaks text.toList)) = (ofText text).lines := by
  rw [Text.splitLines_unifyBreaks, String.ofList_toList]
  rfl

theorem exists_ofFile (holds : tree.HoldsText base path text) :
    ∃ document, ofFile codecs tree base path "utf-8" = .ok document ∧ document.path = some path ∧
      document.encoding = "utf-8" ∧ document.Alike (ofText text) := by
  unfold ofFile
  rw [holds.readHeld_eq]
  exact ⟨_, rfl, rfl, rfl, alike_of_lines_eq (splitLines_read text)⟩

theorem exists_reload {document : Document} (backed : document.path = some path)
    (encoded : document.encoding = "utf-8") (holds : tree.HoldsText base path text) :
    ∃ reloaded, document.reload codecs tree base = .ok reloaded ∧ reloaded.Alike (ofText text) := by
  unfold reload
  rw [backed]
  dsimp only
  rw [encoded, holds.readText_eq]
  exact ⟨_, rfl, alike_of_lines_eq (splitLines_read text)⟩

/-- A document read from a file in UTF-8 is like one made from the text of the file. It is so again
after the file has been written anew and the document reloaded, whatever lines the document has been
given in between. -/
theorem ofFile_alike_ofText (codecs : Text.Codecs) (tree : Tree) (base : Place) (path : Path)
    (text : String) (holds : tree.HoldsText base path text) :
    ∃ document, ofFile codecs tree base path "utf-8" = .ok document ∧
      document.Alike (ofText text) ∧
      ∀ written : String,
        (∃ later, tree.write base path (Text.Utf8.encode written.toList) = .ok later ∧
          later.HoldsText base path written) ∧
        ∀ later : Tree, later.HoldsText base path written → ∀ lines : List String,
          ∃ reloaded, { document with lines := lines : Document }.reload codecs later base =
              .ok reloaded ∧
            reloaded.Alike (ofText written) := by
  obtain ⟨document, made, backed, encoded, alike⟩ := exists_ofFile holds
  refine ⟨document, made, alike, fun written => ⟨holds.exists_write written, ?_⟩⟩
  intro later holdsLater lines
  have backedStill : { document with lines := lines : Document }.path = some path := backed
  have encodedStill : { document with lines := lines : Document }.encoding = "utf-8" := encoded
  exact exists_reload backedStill encodedStill holdsLater

/-- Characters of one to four bytes, all line ends, and a path that leads up and down again. -/
theorem ofFile_alike_ofText_mixed :
    ∃ (tree later : Tree) (path : Path) (document reloaded : Document),
      tree.HoldsText [] path "// #-- \u00e9\r\r\n\u20ac\r😀\n" ∧
      ofFile .none tree [] path "utf-8" = .ok document ∧
      document.lines = ["// #-- \u00e9", "", "\u20ac", "😀"] ∧
      tree.write [] path (Text.Utf8.encode "a\r\n\nb".toList) = .ok later ∧
      document.reload .none later [] = .ok reloaded ∧ reloaded.lines = ["a", "", "b"] := by
  have holds : (Tree.empty.putFile ["src", "a.c"] (Text.Utf8.encode
      "// #-- \u00e9\r\r\n\u20ac\r😀\n".toList)).HoldsText [] (.ofString "src/../src/a.c")
      "// #-- \u00e9\r\r\n\u20ac\r😀\n" := rfl
  obtain ⟨document, made, alike, rewrites⟩ := ofFile_alike_ofText .none _ _ _ _ holds
  obtain ⟨⟨later, written, holdsLater⟩, reloads⟩ := rewrites "a\r\n\nb"
  obtain ⟨reloaded, done, alikeLater⟩ := reloads later holdsLater document.lines
  exact ⟨_, later, _, document, reloaded, holds, made, alike.lines.trans rfl, written, done,
    alikeLater.lines.trans rfl⟩

end Document

end CommentOutline
