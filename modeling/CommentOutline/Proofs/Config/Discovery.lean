import Mathlib.Data.List.Infix
import CommentOutline.Config.Source
import CommentOutline.Proofs.FileTree.Writing

set_option autoImplicit false

/-! Finding the configuration file. The search looks into one directory after the other, each above
the one before, and ends at the first configuration file, or at the top, which has nothing above it.
Every directory that it leaves behind holds no such file, so what it finds is the nearest one. -/

namespace CommentOutline

namespace FileTree

variable {tree : Tree} {base place : Place} {path : Path}

def Tree.Rooted (tree : Tree) : Prop :=
  ∀ place name, (tree.entry? (place ++ [name])).isSome = true → tree.isDirectoryAt place = true

theorem Tree.walk_eq_foldl {start goal : Place} {parts : List String}
    (walked : tree.walk path start parts = .ok goal) : parts.foldl climb start = goal := by
  induction parts generalizing start with
  | nil => exact Except.ok.inj walked
  | cons part parts ih =>
      unfold walk at walked
      split at walked
      · exact ih walked
      · cases walked
      · cases walked

theorem Tree.resolve_of_locate (located : tree.locate base path = .ok place) :
    resolve base path = place :=
  walk_eq_foldl located

theorem Tree.isSome_of_isFileAt (file : tree.isFileAt place = true) :
    (tree.entry? place).isSome = true := by
  unfold isFileAt at file
  split at file
  · rename_i found
    rw [found]
    rfl
  · cases file

end FileTree

namespace Config

open FileTree (Path Place Tree resolve)

variable {tree : Tree} {origin directory other : Place} {found found' : Option Place}
variable {turns turns' : Nat}

/-! ### The search -/

/-- The search from a directory, with the number of directories that it looks into. It ends at a
configuration file, or at a directory with nothing above it. -/
inductive Search (tree : Tree) : (turns : Nat) → (directory : Place) → Option Place → Prop
  | here {directory : Place} : tree.isFileAt (directory ++ [fileName]) = true →
      Search tree 1 directory (some (directory ++ [fileName]))
  | top {directory : Place} : tree.isFileAt (directory ++ [fileName]) = false →
      directory = directory.dropLast → Search tree 1 directory none
  | above {directory : Place} {turns : Nat} {found : Option Place} :
      tree.isFileAt (directory ++ [fileName]) = false → directory ≠ directory.dropLast →
      Search tree turns directory.dropLast found → Search tree (turns + 1) directory found

theorem eq_dropLast_iff (directory : Place) : directory = directory.dropLast ↔ directory = [] := by
  constructor
  · intro same
    have lengths := congrArg List.length same
    rw [List.length_dropLast] at lengths
    exact List.length_eq_zero_iff.mp (by omega)
  · rintro rfl
    rfl

/-- The search ends: with every turn the directory is one level nearer to the top. -/
theorem exists_search (tree : Tree) (upward : List String) :
    ∃ turns ≤ upward.length + 1, Search tree turns upward.reverse (nearest? tree upward) := by
  induction upward with
  | nil =>
      refine ⟨1, Nat.le_refl 1, ?_⟩
      rw [nearest?]
      split
      · rename_i file
        exact .here file
      · rename_i file
        exact .top (Bool.not_eq_true _ ▸ file) rfl
  | cons name upward ih =>
      obtain ⟨turns, few, search⟩ := ih
      rw [nearest?]
      split
      · rename_i file
        exact ⟨1, Nat.le_add_left 1 _, .here file⟩
      · rename_i file
        have below : (name :: upward).reverse ≠ (name :: upward).reverse.dropLast := by
          rw [Ne, eq_dropLast_iff]
          exact List.reverse_ne_nil_iff.mpr (List.cons_ne_nil _ _)
        have left : (name :: upward).reverse.dropLast = upward.reverse := by
          rw [List.reverse_cons, List.dropLast_concat]
        exact ⟨turns + 1, Nat.succ_le_succ few,
          .above (Bool.not_eq_true _ ▸ file) below (left ▸ search)⟩

theorem Search.unique (search : Search tree turns directory found)
    (search' : Search tree turns' directory found') : turns = turns' ∧ found = found' := by
  induction search generalizing turns' with
  | here file =>
      cases search' with
      | here _ => exact ⟨rfl, rfl⟩
      | top lacks _ | above lacks _ _ => cases file.symm.trans lacks
  | top lacks high =>
      cases search' with
      | here file => cases file.symm.trans lacks
      | top _ _ => exact ⟨rfl, rfl⟩
      | above _ low _ => exact absurd high low
  | above lacks low _ ih =>
      cases search' with
      | here file => cases file.symm.trans lacks
      | top _ high => exact absurd high low
      | above _ _ later =>
          obtain ⟨rfl, rfl⟩ := ih later
          exact ⟨rfl, rfl⟩

/-! ### What the search finds -/

/-- The directory is the one nearest to another, among that one and all above it, that holds a
configuration file. -/
structure Nearest (tree : Tree) (origin directory : Place) : Prop where
  above : directory <+: origin
  holds : tree.isFileAt (directory ++ [fileName]) = true
  deepest : ∀ other, other <+: origin → tree.isFileAt (other ++ [fileName]) = true →
    other <+: directory

theorem Nearest.unique (nearest : Nearest tree origin directory)
    (nearest' : Nearest tree origin other) : directory = other :=
  (nearest'.deepest directory nearest.above nearest.holds).eq_of_length_le
    (nearest.deepest other nearest'.above nearest'.holds).length_le

theorem prefix_iff_eq_or_dropLast (other directory : Place) :
    other <+: directory ↔ other = directory ∨ other <+: directory.dropLast := by
  rcases List.eq_nil_or_concat' directory with rfl | ⟨front, name, rfl⟩
  · rw [List.dropLast_nil, List.prefix_nil, or_self]
  · rw [List.dropLast_concat, List.prefix_concat_iff]

/-- No directory that the search has left holds a configuration file: where it finds one, all others
stand above, and where it finds none there is none. -/
theorem Search.result (search : Search tree turns origin found) :
    (∃ directory, Nearest tree origin directory ∧ found = some (directory ++ [fileName])) ∨
      found = none ∧ ∀ directory, directory <+: origin →
        tree.isFileAt (directory ++ [fileName]) = false := by
  induction search with
  | @here directory file =>
      exact Or.inl ⟨directory, ⟨List.prefix_rfl, file, fun _ above _ => above⟩, rfl⟩
  | @top directory lacks high =>
      rw [eq_dropLast_iff] at high
      subst high
      refine Or.inr ⟨rfl, fun other above => ?_⟩
      rw [List.prefix_nil] at above
      rw [above]
      exact lacks
  | @above directory turns found lacks low _ ih =>
      rcases ih with ⟨nearest, is, rfl⟩ | ⟨rfl, nowhere⟩
      · refine Or.inl ⟨nearest, ⟨is.above.trans (List.dropLast_prefix _), is.holds, ?_⟩, rfl⟩
        intro other above file
        rcases (prefix_iff_eq_or_dropLast other directory).mp above with rfl | higher
        · cases lacks.symm.trans file
        · exact is.deepest other higher file
      · refine Or.inr ⟨rfl, fun other above => ?_⟩
        rcases (prefix_iff_eq_or_dropLast other directory).mp above with rfl | higher
        · exact lacks
        · exact nowhere other higher

/-! ### The configuration file for a path -/

/-- Where the search for the configuration file of a path begins. -/
def searchOrigin (tree : Tree) (base : Place) (start : Path) : Place :=
  if tree.isFileAt (resolve base start) then (resolve base start).dropLast else resolve base start

theorem search_find? (tree : Tree) (base : Place) (start : Path) :
    ∃ turns found, turns ≤ (searchOrigin tree base start).length + 1 ∧
      Search tree turns (searchOrigin tree base start) found ∧
      find? tree base start = found.map Path.ofPlace := by
  obtain ⟨turns, few, search⟩ := exists_search tree (searchOrigin tree base start).reverse
  rw [List.length_reverse] at few
  rw [List.reverse_reverse] at search
  exact ⟨turns, _, few, search, rfl⟩

theorem ofPlace_injective {place place' : Place} (same : Path.ofPlace place = Path.ofPlace place') :
    place = place' :=
  congrArg Path.parts same

theorem find?_eq_some_iff (tree : Tree) (base : Place) (start file : Path) :
    find? tree base start = some file ↔ ∃ directory,
      Nearest tree (searchOrigin tree base start) directory ∧
        file = .ofPlace (directory ++ [fileName]) := by
  obtain ⟨turns, found, -, search, same⟩ := search_find? tree base start
  rw [same]
  rcases search.result with ⟨directory, nearest, rfl⟩ | ⟨rfl, nowhere⟩
  · rw [Option.map_some, Option.some.injEq]
    constructor
    · intro here
      exact ⟨directory, nearest, here.symm⟩
    · rintro ⟨other, nearest', rfl⟩
      rw [nearest.unique nearest']
  · refine iff_of_false (fun here => nomatch here) ?_
    rintro ⟨directory, nearest, -⟩
    cases nearest.holds.symm.trans (nowhere directory nearest.above)

theorem find?_eq_none_iff (tree : Tree) (base : Place) (start : Path) :
    find? tree base start = none ↔ ∀ directory, directory <+: searchOrigin tree base start →
      tree.isFileAt (directory ++ [fileName]) = false := by
  obtain ⟨turns, found, -, search, same⟩ := search_find? tree base start
  rw [same]
  rcases search.result with ⟨directory, nearest, rfl⟩ | ⟨rfl, nowhere⟩
  · refine iff_of_false (fun nothing => nomatch nothing) fun nowhere => ?_
    cases nearest.holds.symm.trans (nowhere directory nearest.above)
  · exact iff_of_true rfl nowhere

theorem Nearest.isDirectoryAt (nearest : Nearest tree origin directory) (rooted : tree.Rooted) :
    tree.isDirectoryAt directory = true :=
  rooted directory fileName (Tree.isSome_of_isFileAt nearest.holds)

/-- The search for the configuration file of a path looks into one directory more at most than there
are names in the place where it begins. That is the place to which the path is resolved, where it
leads if it leads anywhere, or the directory of the file there. What is found is the file in the
nearest directory that holds a configuration file, and nothing is found only if no directory from
there to the top holds one. -/
theorem find?_nearest (tree : Tree) (base : Place) (start : Path) :
    (∀ place, tree.locate base start = .ok place → resolve base start = place) ∧
      (∃ turns found, turns ≤ (searchOrigin tree base start).length + 1 ∧
        Search tree turns (searchOrigin tree base start) found ∧
        find? tree base start = found.map Path.ofPlace) ∧
      (∀ file, find? tree base start = some file ↔ ∃ directory,
        Nearest tree (searchOrigin tree base start) directory ∧
          file = .ofPlace (directory ++ [fileName])) ∧
      (tree.Rooted → ∀ directory, Nearest tree (searchOrigin tree base start) directory →
        tree.isDirectoryAt directory = true) ∧
      (find? tree base start = none ↔ ∀ directory, directory <+: searchOrigin tree base start →
        tree.isFileAt (directory ++ [fileName]) = false) :=
  ⟨fun _ located => Tree.resolve_of_locate located, search_find? tree base start,
    find?_eq_some_iff tree base start, fun rooted _ nearest => nearest.isDirectoryAt rooted,
    find?_eq_none_iff tree base start⟩

/-- The start is a file two levels down, named by a way back from a place that does not exist.
Beside it stands a directory with the name of a configuration file; the file itself is at the
top. -/
theorem find?_nearest_upward :
    let tree : Tree := ⟨[([fileName], .file []), (["a"], .directory), (["a", "b"], .directory),
      (["a", "b", fileName], .directory), (["a", "b", "c"], .file [])]⟩
    searchOrigin tree ["a"] (.ofString "x/../b//c") = ["a", "b"] ∧
      find? tree ["a"] (.ofString "x/../b//c") = some (.ofPlace [fileName]) ∧
      Nearest tree ["a", "b"] [] := by
  intro tree
  have origin : searchOrigin tree ["a"] (.ofString "x/../b//c") = ["a", "b"] := by decide +kernel
  have found : find? tree ["a"] (.ofString "x/../b//c") = some (.ofPlace [fileName]) := by
    decide +kernel
  obtain ⟨directory, nearest, same⟩ := ((find?_nearest tree ["a"] _).2.2.1 _).mp found
  have top : directory = [] := by
    have parts := ofPlace_injective same
    exact (List.append_cancel_right (parts : [] ++ [fileName] = directory ++ [fileName])).symm
  rw [origin, top] at nearest
  exact ⟨origin, found, nearest⟩

end Config

end CommentOutline
